import Subdux.Lib.GoStrings
import Subdux.Lib.Rows
import Subdux.Time
/-!
# Sessions

The tables `users` and `refresh_tokens` and the statements and transactions of
`internal/service/auth_session.go`, `auth.go`, `auth_email.go` and `admin_users.go`
on them. A clock reading, a generated token and a password hash are arguments; the
hash of a refresh token is a parameter.
-/

namespace Subdux
open Rows GoStrings

structure SessionUser where
  id : Nat
  username : String
  email : String
  password : String
  role : String
  status : String
  totpEnabled : Bool
  deriving DecidableEq

structure RefreshToken where
  id : Nat
  userID : Nat
  tokenHash : String
  expiresAt : Time
  lastUsedAt : Option Time
  revokedAt : Option Time
  deriving DecidableEq

structure SessionStore where
  users : List SessionUser
  tokens : List RefreshToken
  nextTokenID : Nat
  deriving DecidableEq

inductive SessionError where
  | invalidRefreshToken | invalidStatus | firstUser | database
  deriving DecidableEq

def SessionError.text : SessionError → String
  | invalidRefreshToken => "invalid refresh token"
  | invalidStatus => "invalid status"
  | firstUser => "cannot disable the first user"
  | database => "database error"

/-! ## Statements -/

/-- `Create` of a token: hashes are unique, and the user's row exists. -/
def insertRefreshToken (userID : Nat) (tokenHash : String) (expiresAt : Time) (s : SessionStore) :
    Except SessionError SessionStore :=
  if s.tokens.any (·.tokenHash = tokenHash) || !s.users.any (·.id = userID) then .error .database
  else
    .ok { s with
      tokens := s.tokens ++ [⟨s.nextTokenID, userID, tokenHash, expiresAt, none, none⟩]
      nextTokenID := s.nextTokenID + 1 }

def revokeWhere (p : RefreshToken → Bool) (revoke : RefreshToken → RefreshToken)
    (s : SessionStore) : SessionStore :=
  { s with tokens := updateWhere (fun token => token.revokedAt.isNone && p token) revoke s.tokens }

def revokeAllRefreshTokens (userID : Nat) (now : Time) (s : SessionStore) : SessionStore :=
  revokeWhere (·.userID = userID) (fun token => { token with revokedAt := some now }) s

def updateUser (userID : Nat) (set : SessionUser → SessionUser) (s : SessionStore) : SessionStore :=
  { s with users := updateWhere (·.id = userID) set s.users }

section Tokens
variable (hashToken : String → String)

def logout (rawRefreshToken : String) (now : Time) (s : SessionStore) : SessionStore :=
  let raw := trimSpace rawRefreshToken
  if raw = "" then s
  else
    revokeWhere (·.tokenHash = hashToken raw)
      (fun token => { token with revokedAt := some now, lastUsedAt := some now }) s

/-- The token that `RefreshSession` finds, where it accepts it. -/
def findRefreshable (rawRefreshToken : String) (now : Time) (s : SessionStore) :
    Except SessionError RefreshToken :=
  let raw := trimSpace rawRefreshToken
  if raw = "" then .error .invalidRefreshToken
  else
    match s.tokens.find? (·.tokenHash = hashToken raw) with
    | none => .error .invalidRefreshToken
    | some stored =>
      if stored.revokedAt.isSome || now.after stored.expiresAt then .error .invalidRefreshToken
      else
        match s.users.find? (·.id = stored.userID) with
        | none => .error .invalidRefreshToken
        | some user => if user.status ≠ "active" then .error .invalidRefreshToken else .ok stored

/-- `RefreshSession`, one transaction: an error leaves the store alone. -/
def refreshSession (rawRefreshToken : String) (now : Time) (newHash : String) (newExpires : Time)
    (s : SessionStore) :
    Except SessionError SessionStore := do
  let stored ← findRefreshable hashToken rawRefreshToken now s
  let unrevoked (token : RefreshToken) : Bool := token.revokedAt.isNone && token.id = stored.id
  if affected unrevoked s.tokens = 0 then throw .invalidRefreshToken
  else
    insertRefreshToken stored.userID newHash newExpires
      { s with
        tokens := updateWhere unrevoked
          (fun token => { token with revokedAt := some now, lastUsedAt := some now }) s.tokens }

end Tokens

/-! ## Transactions -/

/-- The transaction of `ChangePassword` and of `ResetPassword`. -/
def changePassword (userID : Nat) (hash : String) (now : Time) (s : SessionStore) : SessionStore :=
  revokeAllRefreshTokens userID now (updateUser userID ({ · with password := hash }) s)

def changeUserStatus (userID : Nat) (status : String) (now : Time) (s : SessionStore) :
    Except SessionError SessionStore :=
  if status ≠ "active" ∧ status ≠ "disabled" then .error .invalidStatus
  else if userID = 1 ∧ status = "disabled" then .error .firstUser
  else
    let s := updateUser userID ({ · with status := status }) s
    .ok (if status = "disabled" then revokeAllRefreshTokens userID now s else s)

end Subdux
