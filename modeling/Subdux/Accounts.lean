import Subdux.ImportSubdux
import Subdux.Lib.Results
import Subdux.Lib.Runs
import Subdux.Sessions
/-!
# Accounts

How users come to be and change their email: `Register` and `Login` of
`internal/service/auth.go`, `EnsureInitialAdmin`, `ConfirmEmailChange`,
`CreateUser` of `admin_users.go` and `createOIDCUser` of `oidc.go`. Password hashes
are arguments, and so is what a call reads besides the users (`AuthContext`). Each
call is one step; one that fails leaves the users alone.
-/

namespace Subdux
open GoStrings Rows Runs Results
open ImportService (sqlLower)

structure OIDCConnection where
  userID : Nat
  subject : String
  email : String
  deriving DecidableEq

structure AccountStore where
  users : List SessionUser
  connections : List OIDCConnection
  nextUserID : Nat
  deriving DecidableEq

inductive AccountError where
  | registrationDisabled | emailDomainNotAllowed | verificationCodeRequired | verificationCodeInvalid
  | verificationCodeTooManyAttempts | emailAlreadyRegistered | usernameAlreadyTaken
  | passwordTooLong | passwordTooShort
  | fieldsRequired | invalidEmail | userNotFound | newEmailSameAsCurrent | oidcEmailMissing
  | oidcEmailRegistered
  | oidcUsername | database
  deriving DecidableEq

def AccountError.text : AccountError → String
  | registrationDisabled => "registration is disabled"
  | emailDomainNotAllowed => "email domain is not allowed"
  | verificationCodeRequired => "verification code is required"
  | verificationCodeInvalid => "invalid or expired verification code"
  | verificationCodeTooManyAttempts =>
    "verification code has too many failed attempts, request a new code"
  | emailAlreadyRegistered => "email already registered"
  | usernameAlreadyTaken => "username already taken"
  | passwordTooLong => "password must not exceed 72 bytes"
  | passwordTooShort => "password must be at least 8 characters"
  | fieldsRequired => "username, email and password are required"
  | invalidEmail => "invalid email"
  | userNotFound => "user not found"
  | newEmailSameAsCurrent => "new email must be different from current email"
  | oidcEmailMissing => "oidc provider did not return an email"
  | oidcEmailRegistered => "email already registered, connect oidc from account settings"
  | oidcUsername => "failed to allocate username"
  | database => "database error"

/-- What a call reads besides the users: the settings, `mail.ParseAddress`, and the
outcome of `consumeVerificationCode` for an email and a code. -/
structure AuthContext where
  registrationEnabled : Bool
  emailVerificationEnabled : Bool
  emailDomainAllowed : String → Bool
  parseAddress : String → Bool
  consumeVerificationCode : String → String → Except AccountError Unit

def normalizeEmail (email : String) : String := toLower (trimSpace email)

def bcryptMaxPasswordBytes : Nat := 72

def validateBcryptPasswordLength (password : String) : Except AccountError Unit :=
  refuseIf (bcryptMaxPasswordBytes < password.utf8ByteSize) .passwordTooLong

def emailExists (email : String) (excludeUserID : Nat) (s : AccountStore) : Bool :=
  s.users.any fun user => sqlLower user.email = email ∧ (excludeUserID = 0 ∨ user.id ≠ excludeUserID)

def sanitizeAndValidateEmail (ctx : AuthContext) (email : String) : Except AccountError String := do
  let normalized := normalizeEmail email
  refuseIf (normalized = "") .invalidEmail
  refuseIf (ctx.parseAddress normalized = false) .invalidEmail
  return normalized

/-- `Create` of a user: usernames and emails are unique. -/
def insertUser (username email password role : String) (s : AccountStore) :
    Except AccountError AccountStore :=
  if s.users.any fun user => user.username = username ∨ user.email = email then .error .database
  else
    .ok { s with
      users := s.users ++ [⟨s.nextUserID, username, email, password, role, "active", false⟩]
      nextUserID := s.nextUserID + 1 }

/-! ## Calls -/

/-- What `Register` asks of the code, where emails are verified. -/
def checkRegistrationCode (ctx : AuthContext) (email code : String) : Except AccountError Unit :=
  if ctx.emailVerificationEnabled then
    if code = "" then .error .verificationCodeRequired else ctx.consumeVerificationCode email code
  else .ok ()

def register (ctx : AuthContext) (username email password code hash : String) (s : AccountStore) :
    Except AccountError AccountStore := do
  refuseIf (ctx.registrationEnabled = false) .registrationDisabled
  refuseIf (ctx.emailDomainAllowed (normalizeEmail email) = false) .emailDomainNotAllowed
  checkRegistrationCode ctx (normalizeEmail email) (trimSpace code)
  refuseIf (emailExists (normalizeEmail email) 0 s) .emailAlreadyRegistered
  refuseIf (s.users.any (·.username = trimSpace username)) .usernameAlreadyTaken
  validateBcryptPasswordLength password
  insertUser (trimSpace username) (normalizeEmail email) hash "user" s

/-- The user that `Login` looks up. -/
def findLogin (identifier : String) (s : AccountStore) : Option SessionUser :=
  let identifier := trimSpace identifier
  s.users.find? fun user => sqlLower user.email = toLower identifier ∨ user.username = identifier

def confirmEmailChange (ctx : AuthContext) (userID : Nat) (newEmail code : String) (s : AccountStore) :
    Except AccountError AccountStore := do
  let email ← sanitizeAndValidateEmail ctx newEmail
  refuseIf (ctx.emailDomainAllowed email = false) .emailDomainNotAllowed
  match s.users.find? (·.id = userID) with
  | none => .error .userNotFound
  | some user =>
    refuseIf (normalizeEmail user.email = email) .newEmailSameAsCurrent
    refuseIf (emailExists email userID s) .emailAlreadyRegistered
    ctx.consumeVerificationCode email code
    -- The unique index on emails.
    refuseIf (s.users.any fun other => other.id ≠ userID ∧ other.email = email) .database
    return { s with users := updateWhere (·.id = userID) ({ · with email := email }) s.users }

def createUser (username email password role hash : String) (s : AccountStore) :
    Except AccountError AccountStore := do
  refuseIf (username = "" ∨ email = "" ∨ password = "") .fieldsRequired
  refuseIf (password.utf8ByteSize < 8) .passwordTooShort
  validateBcryptPasswordLength password
  refuseIf (s.users.any (·.email = email)) .emailAlreadyRegistered
  refuseIf (s.users.any (·.username = username)) .usernameAlreadyTaken
  insertUser username email hash (if role ≠ "admin" ∧ role ≠ "user" then "user" else role) s

def ensureInitialAdmin (ctx : AuthContext) (username email password generated hash : String)
    (s : AccountStore) :
    Except AccountError AccountStore := do
  if s.users.length > 0 then return s
  else
    let email ← sanitizeAndValidateEmail ctx email
    validateBcryptPasswordLength (if password = "" then generated else password)
    insertUser (if trimSpace username = "" then "admin" else trimSpace username) email hash "admin" s

/-! ### OIDC users -/

structure OIDCClaims where
  subject : String
  email : String
  preferredUsername : String
  name : String

def isOIDCRune (ch : Char) : Bool := ('a' ≤ ch && ch ≤ 'z') || ('0' ≤ ch && ch ≤ '9')

/-- What the builder holds after the next rune, and a separator where one is pending. -/
def writeOIDCRune (built : List Char) (ch : Char) (pendingSeparator : Bool) : List Char :=
  (if pendingSeparator && !built.isEmpty then built ++ ['_'] else built) ++ [ch]

/-- The loop of `normalizeOIDCUsername`, over what the builder holds. -/
def buildOIDCUsername : List Char → List Char → Bool → List Char
  | [], built, _ => built
  | ch :: rest, built, pendingSeparator =>
    if isOIDCRune ch then
      let built := writeOIDCRune built ch pendingSeparator
      if 32 ≤ built.length then built else buildOIDCUsername rest built false
    else
      let pendingSeparator := pendingSeparator || ch = '_' || ch = '-' || ch = '.' || ch = ' '
      if 32 ≤ built.length then built else buildOIDCUsername rest built pendingSeparator

/-- `strings.Trim(s, "_")`. -/
def trimUnderscores (cs : List Char) : List Char :=
  ((cs.dropWhile (· = '_')).reverse.dropWhile (· = '_')).reverse

def normalizeOIDCUsername (raw : String) : String :=
  let trimmed := toLower (trimSpace raw)
  if trimmed = "" then ""
  else
    let result := trimUnderscores (buildOIDCUsername trimmed.toList [] false)
    if result = [] then "user" else String.ofList result

/-- The part before the first `@`, unless that is empty. -/
def localPart (email : String) : String :=
  let before := email.toList.takeWhile (· ≠ '@')
  if '@' ∈ email.toList ∧ before ≠ [] then String.ofList before else email

def oidcUsernameSeed (claims : OIDCClaims) (email : String) : String :=
  ([claims.preferredUsername, localPart email, claims.name].find? (trimSpace · ≠ "")).getD "user"

def oidcCandidate (base : String) (i : Nat) : String :=
  if i = 0 then base
  else
    let suffix := (i + 1).repr
    String.ofList (base.toList.take (255 - suffix.length)) ++ suffix

def allocateOIDCUsername (seed : String) (s : AccountStore) : Except AccountError String :=
  let normalized := normalizeOIDCUsername seed
  let base := if normalized = "" then "user" else normalized
  match ((List.range 1000).map (oidcCandidate base)).find? fun candidate =>
    !s.users.any (·.username = candidate) with
  | some candidate => .ok candidate
  | none => .error .oidcUsername

def createOIDCUser (claims : OIDCClaims) (hash : String) (s : AccountStore) :
    Except AccountError AccountStore := do
  let email := trimSpace claims.email
  refuseIf (email = "") .oidcEmailMissing
  refuseIf (s.users.any (·.email = email)) .oidcEmailRegistered
  let username ← allocateOIDCUsername (oidcUsernameSeed claims email) s
  let created ← insertUser username email hash "user" s
  -- The unique index on provider and subject.
  refuseIf (s.connections.any (·.subject = claims.subject)) .database
  return { created with connections := s.connections ++ [⟨s.nextUserID, claims.subject, email⟩] }

/-! ## Runs -/

inductive AccountEvent where
  | ensureInitialAdmin (ctx : AuthContext) (username email password generated hash : String)
  | register (ctx : AuthContext) (username email password code hash : String)
  | confirmEmailChange (ctx : AuthContext) (userID : Nat) (newEmail code : String)
  | createUser (username email password role hash : String)
  | createOIDCUser (claims : OIDCClaims) (hash : String)

def AccountEvent.call : AccountEvent → AccountStore → Except AccountError AccountStore
  | .ensureInitialAdmin ctx username email password generated hash =>
    Subdux.ensureInitialAdmin ctx username email password generated hash
  | .register ctx username email password code hash =>
    Subdux.register ctx username email password code hash
  | .confirmEmailChange ctx userID newEmail code => Subdux.confirmEmailChange ctx userID newEmail code
  | .createUser username email password role hash => Subdux.createUser username email password role hash
  | .createOIDCUser claims hash => Subdux.createOIDCUser claims hash

/-- A call that fails leaves the store alone. -/
def AccountStore.step (s : AccountStore) (e : AccountEvent) : Option AccountStore :=
  match e.call s with
  | .ok t => some t
  | .error _ => some s

/-- A username is an email, as one of the two look-ups of `Login` sees it. -/
def NameIsEmail (username email : String) : Prop :=
  username = trimSpace email ∨ sqlLower email = toLower (trimSpace username)

instance (username email : String) : Decidable (NameIsEmail username email) :=
  inferInstanceAs (Decidable (_ ∨ _))

/-- The user's email, where it is the given one up to case and surrounding space, is
one that the uniqueness check `finds`. -/
def EmailSeen (email : String) (finds : String → Bool) (user : SessionUser) : Prop :=
  normalizeEmail user.email = normalizeEmail email → finds user.email = true

instance (email : String) (finds : String → Bool) (user : SessionUser) :
    Decidable (EmailSeen email finds user) :=
  inferInstanceAs (Decidable (_ → _))

/-- The check of each call sees every email that its own differs from in case and
surrounding space only, `CreateUser` gets a username without such space, and no
username is another user's email. The names that `createOIDCUser` allocates have no
`@`. -/
def IdentityKept (s : AccountStore) : AccountEvent → Prop
  | .ensureInitialAdmin .. => True
  | .register _ username email _ _ _ => ∀ user ∈ s.users,
      EmailSeen email (fun stored => sqlLower stored = normalizeEmail email) user ∧
        ¬ NameIsEmail user.username (normalizeEmail email) ∧
          ¬ NameIsEmail (trimSpace username) user.email
  | .confirmEmailChange _ userID newEmail _ => ∀ user ∈ s.users, user.id ≠ userID →
      EmailSeen newEmail (fun stored => sqlLower stored = normalizeEmail newEmail) user ∧
        ¬ NameIsEmail user.username (normalizeEmail newEmail)
  | .createUser username email _ _ _ => trimSpace username = username ∧ ∀ user ∈ s.users,
      EmailSeen email (fun stored => stored = email) user ∧
        ¬ NameIsEmail user.username email ∧ ¬ NameIsEmail username user.email
  | .createOIDCUser claims _ => ∀ user ∈ s.users,
      EmailSeen claims.email (fun stored => stored = trimSpace claims.email) user ∧
        ¬ NameIsEmail user.username (trimSpace claims.email) ∧ '@' ∈ user.email.toList

/-- Two users whom `Login` tells apart. -/
structure Apart (u v : SessionUser) : Prop where
  emails : normalizeEmail u.email ≠ normalizeEmail v.email
  usernames : u.username ≠ v.username
  left : ¬ NameIsEmail u.username v.email
  right : ¬ NameIsEmail v.username u.email

structure AccountInv (s : AccountStore) : Prop where
  ids : (s.users.map (·.id)).Nodup
  fresh : ∀ user ∈ s.users, user.id < s.nextUserID
  trimmed : ∀ user ∈ s.users, trimSpace user.username = user.username
  apart : ∀ u ∈ s.users, ∀ v ∈ s.users, u.id ≠ v.id → Apart u v

theorem Apart.symm {u v : SessionUser} (h : Apart u v) : Apart v u :=
  ⟨h.emails.symm, h.usernames.symm, h.right, h.left⟩

/-! ### Emails -/

section Emails
variable {email : String}

theorem normalizeEmail_idem (email : String) :
    normalizeEmail (normalizeEmail email) = normalizeEmail email := by
  rw [normalizeEmail, normalizeEmail, trimSpace_toLower, toLower_idem]

theorem normalizeEmail_trimSpace (email : String) :
    normalizeEmail (trimSpace email) = normalizeEmail email := by
  rw [normalizeEmail, normalizeEmail, trimSpace_idem]

/-- SQLite's `LOWER` of a rune: the same rune to `TrimSpace` and to `ToLower`. -/
theorem sqlLower_rune (c : Char) :
    isSpace (if 'A' ≤ c ∧ c ≤ 'Z' then Char.ofNat (c.toNat + 32) else c) = isSpace c ∧
      lowerRune (if 'A' ≤ c ∧ c ≤ 'Z' then Char.ofNat (c.toNat + 32) else c) = lowerRune c := by
  split
  · rename_i hletter
    have hcodes : ∀ n ∈ upperCodes, isSpace (Char.ofNat (n + 32)) = isSpace (Char.ofNat n) ∧
        lowerRune (Char.ofNat (n + 32)) = lowerRune (Char.ofNat n) := by decide +kernel
    have hmem : c.toNat ∈ upperCodes := List.mem_range'_1.2 ⟨hletter.1, Nat.lt_succ_of_le hletter.2⟩
    have := hcodes _ hmem
    rwa [Char.ofNat_toNat] at this
  · exact ⟨rfl, rfl⟩

theorem normalizeEmail_sqlLower (email : String) :
    normalizeEmail (sqlLower email) = normalizeEmail email := by
  rw [normalizeEmail, normalizeEmail, sqlLower, trimSpace_map fun c => (sqlLower_rune c).1, toLower,
    toLower,
    String.toList_ofList, List.map_map]
  exact congrArg String.ofList (List.map_congr_left fun c _ => (sqlLower_rune c).2)

/-- An email that `LOWER` maps to a normalized one is the same up to case and space. -/
theorem normalizeEmail_of_sqlLower {other : String} (h : sqlLower other = normalizeEmail email) :
    normalizeEmail other = normalizeEmail email := by
  rw [← normalizeEmail_sqlLower, h, normalizeEmail_idem]

end Emails

/-! ### What `Login` finds -/

section Login
variable {s : AccountStore} {u v : SessionUser}

/-- Apart from its own, no identifier of a user looks up a user. -/
theorem findLogin_own (h : AccountInv s) (hu : u ∈ s.users) {identifier : String}
    (hid : identifier ∈ [u.email, u.username]) (hfind : findLogin identifier s = some v) : v = u := by
  have hv := List.mem_of_find?_eq_some hfind
  have hmatch : sqlLower v.email = toLower (trimSpace identifier) ∨
      v.username = trimSpace identifier := by
    simpa using List.find?_some hfind
  by_contra hne
  have hids : u.id ≠ v.id := fun heq => hne (eq_of_key h.ids hv hu heq.symm)
  have hapart := h.apart u hu v hv hids
  rcases List.mem_pair.1 hid with rfl | rfl
  · rcases hmatch with hemail | hname
    · exact hapart.emails (normalizeEmail_of_sqlLower hemail).symm
    · exact hapart.right (.inl hname)
  · rcases hmatch with hemail | hname
    · exact hapart.left (.inr hemail)
    · exact hapart.usernames (h.trimmed u hu ▸ hname).symm

theorem normalized_nodup (h : AccountInv s) :
    (s.users.map fun user => normalizeEmail user.email).Nodup := by
  refine List.Nodup.map_on ?_ (h.ids.of_map _)
  intro u hu v hv heq
  by_contra hne
  exact (h.apart u hu v hv fun hid => hne (eq_of_key h.ids hu hv hid)).emails heq

end Login

/-! ### Steps -/

section Steps
variable {s t : AccountStore} {ctx : AuthContext} {username email password role code hash : String}

theorem insertUser_ok (h : insertUser username email password role s = .ok t) :
    t = { s with
      users := s.users ++ [⟨s.nextUserID, username, email, password, role, "active", false⟩]
      nextUserID := s.nextUserID + 1 } ∧
      ∀ user ∈ s.users, user.username ≠ username ∧ user.email ≠ email := by
  unfold insertUser at h
  split at h
  · cases h
  · rename_i hnone
    refine ⟨(Except.ok.inj h).symm, ?_⟩
    intro user huser
    constructor
    · intro heq
      exact hnone (List.any_eq_true.2 ⟨user, huser, decide_eq_true (.inl heq)⟩)
    · intro heq
      exact hnone (List.any_eq_true.2 ⟨user, huser, decide_eq_true (.inr heq)⟩)

/-- A user's new email, which `Login` tells apart from the other users. -/
theorem AccountInv.update (h : AccountInv s) {userID : Nat}
    (hapart : ∀ user ∈ s.users, user.id ≠ userID → normalizeEmail user.email ≠ normalizeEmail email ∧
      ¬ NameIsEmail user.username email) :
    AccountInv { s with users := updateWhere (·.id = userID) ({ · with email := email }) s.users } := by
  have hother : ∀ u ∈ s.users, ∀ v ∈ s.users, u.id ≠ userID → v.id = userID →
      Apart u { v with email := email } := by
    intro u hu v hv hid hvid
    obtain ⟨hemail, hleft⟩ := hapart u hu hid
    have hold := h.apart u hu v hv (hvid ▸ hid)
    exact ⟨hemail, hold.usernames, hleft, hold.right⟩
  refine ⟨?_, ?_, ?_, ?_⟩
  · have hids : (updateWhere (fun user => decide (user.id = userID))
        (fun user => { user with email := email }) s.users).map (·.id) =
        s.users.map (·.id) := map_updateWhere SessionUser.id fun _ => rfl
    rw [hids]
    exact h.ids
  · intro user huser
    rcases mem_updateWhere_cases huser with ⟨huser, -⟩ | ⟨old, hold, -, rfl⟩
    · exact h.fresh user huser
    · exact h.fresh old hold
  · intro user huser
    rcases mem_updateWhere_cases huser with ⟨huser, -⟩ | ⟨old, hold, -, rfl⟩
    · exact h.trimmed user huser
    · exact h.trimmed old hold
  · intro u hu v hv hids
    rcases mem_updateWhere_cases hu with ⟨hu', hunot⟩ | ⟨u, hu', huid, rfl⟩ <;>
      rcases mem_updateWhere_cases hv with ⟨hv', hvnot⟩ | ⟨v, hv', hvid, rfl⟩
    · exact h.apart u hu' v hv' hids
    · exact hother u hu' v hv' (of_decide_eq_false hunot) (of_decide_eq_true hvid)
    · exact (hother v hv' u hu' (of_decide_eq_false hvnot) (of_decide_eq_true huid)).symm
    · exact absurd ((of_decide_eq_true huid).trans (of_decide_eq_true hvid).symm) hids

/-- A new user whom `Login` tells apart from the others. -/
theorem AccountInv.insert (h : AccountInv s)
    (hinsert : insertUser username email password role s = .ok t)
    (htrimmed : trimSpace username = username)
    (hapart : ∀ user ∈ s.users, normalizeEmail user.email ≠ normalizeEmail email ∧
      ¬ NameIsEmail user.username email ∧
      ¬ NameIsEmail username user.email) : AccountInv t := by
  obtain ⟨rfl, hnew⟩ := insertUser_ok hinsert
  have hpair : ∀ user ∈ s.users,
      Apart user ⟨s.nextUserID, username, email, password, role, "active", false⟩ := by
    intro user huser
    obtain ⟨hemail, hleft, hright⟩ := hapart user huser
    exact ⟨hemail, (hnew user huser).1, hleft, hright⟩
  refine ⟨?_, ?_, ?_, ?_⟩
  · rw [List.map_append]
    refine List.nodup_append.2 ⟨h.ids, by simp, ?_⟩
    intro a ha b hb
    obtain ⟨user, huser, rfl⟩ := List.mem_map.1 ha
    obtain rfl : b = s.nextUserID := by simpa using hb
    exact (h.fresh user huser).ne
  · intro user huser
    rcases List.mem_append.1 huser with huser | huser
    · exact Nat.lt_succ_of_lt (h.fresh user huser)
    · obtain rfl := List.mem_singleton.1 huser
      exact Nat.lt_succ_self _
  · intro user huser
    rcases List.mem_append.1 huser with huser | huser
    · exact h.trimmed user huser
    · obtain rfl := List.mem_singleton.1 huser
      exact htrimmed
  · intro u hu v hv hids
    rcases List.mem_append.1 hu with hu | hu <;> rcases List.mem_append.1 hv with hv | hv
    · exact h.apart u hu v hv hids
    · obtain rfl := List.mem_singleton.1 hv
      exact hpair u hu
    · obtain rfl := List.mem_singleton.1 hu
      exact (hpair v hv).symm
    · rw [List.mem_singleton.1 hu, List.mem_singleton.1 hv] at hids
      exact absurd rfl hids

theorem sanitizeAndValidateEmail_ok {normalized : String}
    (h : sanitizeAndValidateEmail ctx email = .ok normalized) :
    normalized = normalizeEmail email := by
  obtain ⟨_, -, h⟩ := bind_eq_ok h
  obtain ⟨_, -, h⟩ := bind_eq_ok h
  exact (Except.ok.inj h).symm

/-- No stored email is found by the check, so none differs in case and space only. -/
theorem EmailSeen.ne {finds : String → Bool} {user : SessionUser} (h : EmailSeen email finds user)
    (hnot : finds user.email = false) :
    normalizeEmail user.email ≠ normalizeEmail email := by
  intro heq
  rw [h heq] at hnot
  cases hnot

theorem ensureInitialAdmin_inv {generated : String} (h : AccountInv s)
    (hcall : ensureInitialAdmin ctx username email password generated hash s = .ok t) :
    AccountInv t := by
  unfold ensureInitialAdmin at hcall
  split at hcall
  · cases hcall
    exact h
  · rename_i hempty
    obtain ⟨normalized, -, hcall⟩ := bind_eq_ok hcall
    obtain ⟨_, -, hcall⟩ := bind_eq_ok hcall
    refine h.insert hcall ?_ ?_
    · split
      · decide +kernel
      · exact trimSpace_idem _
    · intro user huser
      exact absurd (List.length_pos_of_mem huser) hempty

theorem register_inv (h : AccountInv s)
    (hkept : IdentityKept s (.register ctx username email password code hash))
    (hcall : register ctx username email password code hash s = .ok t) : AccountInv t := by
  obtain ⟨_, -, hcall⟩ := bind_eq_ok hcall
  obtain ⟨_, -, hcall⟩ := bind_eq_ok hcall
  obtain ⟨_, -, hcall⟩ := bind_eq_ok hcall
  obtain ⟨_, hexists, hcall⟩ := bind_eq_ok hcall
  obtain ⟨_, -, hcall⟩ := bind_eq_ok hcall
  obtain ⟨_, -, hcall⟩ := bind_eq_ok hcall
  refine h.insert hcall (trimSpace_idem _) ?_
  intro user huser
  obtain ⟨hseen, hleft, hright⟩ := hkept user huser
  rw [normalizeEmail_idem]
  refine ⟨hseen.ne ?_, hleft, hright⟩
  rw [decide_eq_false_iff_not]
  intro heq
  exact refuseIf_ok hexists (List.any_eq_true.2 ⟨user, huser, decide_eq_true ⟨heq, .inl rfl⟩⟩)

theorem createUser_inv (h : AccountInv s)
    (hkept : IdentityKept s (.createUser username email password role hash))
    (hcall : createUser username email password role hash s = .ok t) : AccountInv t := by
  obtain ⟨_, -, hcall⟩ := bind_eq_ok hcall
  obtain ⟨_, -, hcall⟩ := bind_eq_ok hcall
  obtain ⟨_, -, hcall⟩ := bind_eq_ok hcall
  obtain ⟨_, -, hcall⟩ := bind_eq_ok hcall
  obtain ⟨_, -, hcall⟩ := bind_eq_ok hcall
  obtain ⟨htrimmed, hkept⟩ := hkept
  refine h.insert hcall htrimmed ?_
  intro user huser
  obtain ⟨hseen, hleft, hright⟩ := hkept user huser
  exact ⟨hseen.ne (decide_eq_false ((insertUser_ok hcall).2 user huser).2), hleft, hright⟩

theorem confirmEmailChange_inv {userID : Nat} (h : AccountInv s)
    (hkept : IdentityKept s (.confirmEmailChange ctx userID email code))
    (hcall : confirmEmailChange ctx userID email code s = .ok t) : AccountInv t := by
  obtain ⟨normalized, hnormalized, hcall⟩ := bind_eq_ok hcall
  obtain rfl := sanitizeAndValidateEmail_ok hnormalized
  obtain ⟨_, -, hcall⟩ := bind_eq_ok hcall
  split at hcall
  · cases hcall
  · rename_i user hfind
    obtain ⟨_, -, hcall⟩ := bind_eq_ok hcall
    obtain ⟨_, hexists, hcall⟩ := bind_eq_ok hcall
    obtain ⟨_, -, hcall⟩ := bind_eq_ok hcall
    obtain ⟨_, -, hcall⟩ := bind_eq_ok hcall
    obtain rfl := Except.ok.inj hcall
    refine h.update ?_
    intro other hother hid
    obtain ⟨hseen, hleft⟩ := hkept other hother hid
    rw [normalizeEmail_idem]
    refine ⟨hseen.ne ?_, hleft⟩
    rw [decide_eq_false_iff_not]
    intro heq
    exact refuseIf_ok hexists (List.any_eq_true.2 ⟨other, hother, decide_eq_true ⟨heq, .inr hid⟩⟩)

end Steps

/-! ### Names that the code allocates -/

/-- The runes of `normalizeOIDCUsername`. -/
def isNameRune (ch : Char) : Bool := isOIDCRune ch || ch = '_'

section Names
variable {cs built : List Char} {base username : String} {s t : AccountStore}

theorem isNameRune_plain {ch : Char} (h : isNameRune ch = true) :
    isSpace ch = false ∧ lowerRune ch = ch ∧ ch ≠ '@' := by
  have hcodes : ∀ n < 128, isNameRune (Char.ofNat n) = true →
      isSpace (Char.ofNat n) = false ∧ lowerRune (Char.ofNat n) = Char.ofNat n ∧
        Char.ofNat n ≠ '@' := by decide +kernel
  have hascii : ch.toNat < 128 := by
    simp only [isNameRune, isOIDCRune, Bool.or_eq_true, Bool.and_eq_true, decide_eq_true_eq] at h
    rcases h with (⟨-, hhi⟩ | ⟨-, hhi⟩) | rfl
    · exact lt_of_le_of_lt (show ch.toNat ≤ 122 from hhi) (by decide)
    · exact lt_of_le_of_lt (show ch.toNat ≤ 57 from hhi) (by decide)
    · decide
  have := hcodes ch.toNat hascii
  rw [Char.ofNat_toNat] at this
  exact this h

theorem writeOIDCRune_runes {ch : Char} (hbuilt : ∀ ch ∈ built, isNameRune ch = true)
    (hch : isOIDCRune ch = true) (pending : Bool) :
    ∀ c ∈ writeOIDCRune built ch pending, isNameRune c = true := by
  intro c hc
  rcases List.mem_append.1 hc with hc | hc
  · split at hc
    · rcases List.mem_append.1 hc with hc | hc
      · exact hbuilt c hc
      · rw [List.mem_singleton.1 hc]
        decide
    · exact hbuilt c hc
  · rw [List.mem_singleton.1 hc, isNameRune, hch, Bool.true_or]

theorem buildOIDCUsername_runes (hbuilt : ∀ ch ∈ built, isNameRune ch = true) (pending : Bool) :
    ∀ ch ∈ buildOIDCUsername cs built pending, isNameRune ch = true := by
  induction cs generalizing built pending with
  | nil => exact hbuilt
  | cons c cs ih =>
    unfold buildOIDCUsername
    split
    · rename_i hc
      have hnext := writeOIDCRune_runes hbuilt hc pending
      dsimp only
      split
      · exact hnext
      · exact ih hnext false
    · dsimp only
      split
      · exact hbuilt
      · exact ih hbuilt _

theorem trimUnderscores_subset : ∀ ch ∈ trimUnderscores cs, ch ∈ cs := by
  intro ch hch
  have h₁ := List.mem_reverse.1 hch
  have h₂ := List.mem_reverse.1 ((List.dropWhile_sublist _).subset h₁)
  exact (List.dropWhile_sublist _).subset h₂

theorem user_runes : ∀ ch ∈ "user".toList, isNameRune ch = true :=
  List.all_eq_true.1 (by decide : "user".toList.all isNameRune = true)

theorem normalizeOIDCUsername_runes (raw : String) :
    ∀ ch ∈ (normalizeOIDCUsername raw).toList, isNameRune ch = true := by
  unfold normalizeOIDCUsername
  dsimp only
  split
  · simp
  · split
    · exact user_runes
    · rw [String.toList_ofList]
      intro ch hch
      exact buildOIDCUsername_runes (by simp) false ch (trimUnderscores_subset ch hch)

theorem oidcCandidate_runes (hbase : ∀ ch ∈ base.toList, isNameRune ch = true) (i : Nat) :
    ∀ ch ∈ (oidcCandidate base i).toList, isNameRune ch = true := by
  unfold oidcCandidate
  split
  · exact hbase
  · dsimp only
    rw [String.toList_append, String.toList_ofList, Nat.toList_repr]
    intro ch hch
    rcases List.mem_append.1 hch with hch | hch
    · exact hbase ch (List.mem_of_mem_take hch)
    · have hdigit := Nat.isDigit_of_mem_toDigits (by decide) (by decide) hch
      simp only [Char.isDigit, Bool.and_eq_true, decide_eq_true_eq] at hdigit
      simp only [isNameRune, isOIDCRune, Bool.or_eq_true, Bool.and_eq_true, decide_eq_true_eq]
      exact .inl (.inr hdigit)

theorem allocateOIDCUsername_runes {seed : String} (h : allocateOIDCUsername seed s = .ok username) :
    ∀ ch ∈ username.toList, isNameRune ch = true := by
  unfold allocateOIDCUsername at h
  dsimp only at h
  split at h
  · rename_i candidate hfind
    obtain rfl := Except.ok.inj h
    obtain ⟨i, -, rfl⟩ := List.mem_map.1 (List.mem_of_find?_eq_some hfind)
    refine oidcCandidate_runes ?_ i
    split
    · exact user_runes
    · exact normalizeOIDCUsername_runes seed
  · cases h

theorem trimSpace_of_runes (h : ∀ ch ∈ username.toList, isNameRune ch = true) :
    trimSpace username = username := by
  apply IsTrimmed.trimSpace_eq
  constructor
  · intro c hc
    exact (isNameRune_plain (h c (List.mem_of_mem_head? hc))).1
  · intro c hc
    exact (isNameRune_plain (h c (List.mem_of_mem_getLast? hc))).1

/-- A name without `@` is nobody's email. -/
theorem nameIsEmail_of_runes {email : String} (h : ∀ ch ∈ username.toList, isNameRune ch = true)
    (hat : '@' ∈ email.toList) :
    ¬ NameIsEmail username email := by
  have hnot : '@' ∉ username.toList := fun hmem => (isNameRune_plain (h _ hmem)).2.2 rfl
  rintro (heq | heq)
  · apply hnot
    rw [heq]
    exact mem_trimSpace hat (by decide)
  · have hlower : '@' ∈ (sqlLower email).toList := by
      rw [sqlLower, String.toList_ofList]
      exact List.mem_map.2 ⟨'@', hat, by decide⟩
    rw [heq, trimSpace_of_runes h, toLower, String.toList_ofList] at hlower
    obtain ⟨c, hc, hcat⟩ := List.mem_map.1 hlower
    rw [(isNameRune_plain (h c hc)).2.1] at hcat
    exact hnot (hcat ▸ hc)

theorem createOIDCUser_inv {claims : OIDCClaims} {hash : String} (h : AccountInv s)
    (hkept : IdentityKept s (.createOIDCUser claims hash))
    (hcall : createOIDCUser claims hash s = .ok t) : AccountInv t := by
  obtain ⟨_, -, hcall⟩ := bind_eq_ok hcall
  obtain ⟨_, -, hcall⟩ := bind_eq_ok hcall
  obtain ⟨username, hallocate, hcall⟩ := bind_eq_ok hcall
  obtain ⟨created, hinsert, hcall⟩ := bind_eq_ok hcall
  obtain ⟨_, -, hcall⟩ := bind_eq_ok hcall
  obtain rfl := Except.ok.inj hcall
  have hrunes := allocateOIDCUsername_runes hallocate
  have hcreated : AccountInv created := by
    refine h.insert hinsert (trimSpace_of_runes hrunes) ?_
    intro user huser
    obtain ⟨hseen, hleft, hat⟩ := hkept user huser
    rw [normalizeEmail_trimSpace]
    refine ⟨hseen.ne ?_, hleft, nameIsEmail_of_runes hrunes hat⟩
    exact decide_eq_false ((insertUser_ok hinsert).2 user huser).2
  exact ⟨hcreated.ids, hcreated.fresh, hcreated.trimmed, hcreated.apart⟩

end Names

/-! ### What a run keeps -/

section Keeps
variable {s t : AccountStore} {e : AccountEvent}

theorem step_accountInv (h : AccountInv s) (hkept : IdentityKept s e) (hstep : s.step e = some t) :
    AccountInv t := by
  unfold AccountStore.step at hstep
  split at hstep
  · rename_i next hcall
    cases hstep
    cases e with
    | ensureInitialAdmin => exact ensureInitialAdmin_inv h hcall
    | register => exact register_inv h hkept hcall
    | confirmEmailChange => exact confirmEmailChange_inv h hkept hcall
    | createUser => exact createUser_inv h hkept hcall
    | createOIDCUser => exact createOIDCUser_inv h hkept hcall
  · cases hstep
    exact h

/-- No two users have one email, and an identifier of a user logs in that user or nobody. -/
def Identified (s : AccountStore) : Prop :=
  (s.users.map fun user => normalizeEmail user.email).Nodup ∧
    ∀ u ∈ s.users, ∀ identifier ∈ [u.email, u.username], ∀ v, findLogin identifier s = some v → v = u

theorem account_identity (s t : AccountStore) (h : s.users = [])
    (hpath : Path AccountStore.step IdentityKept s t) :
    Identified t := by
  have hempty : AccountInv s := ⟨by simp [h], by simp [h], by simp [h], by simp [h]⟩
  have hinv : AccountInv t :=
    hpath.invariant AccountInv (fun _ _ _ h hkept hstep => step_accountInv h hkept hstep) hempty
  exact ⟨normalized_nodup hinv, fun u hu identifier hid v hfind => findLogin_own hinv hu hid hfind⟩

end Keeps

/-! ### Runs on fixed inputs -/

instance (s : AccountStore) (e : AccountEvent) : Decidable (IdentityKept s e) := by
  cases e <;> unfold IdentityKept <;> infer_instance

def openContext : AuthContext := ⟨true, false, fun _ => true, fun _ => true, fun _ _ => .ok ()⟩

/-- An admin creates a user with another spelling of an email in use. -/
theorem account_identity_fails :
    ¬ ∀ s t : AccountStore, s.users = [] → Path AccountStore.step Always s t → Identified t := by
  intro h
  have hrun : (exec AccountStore.step Always ⟨[], [], 1⟩
      [.register openContext "ann" "ann@example.com" "correct horse" "" "",
        .createUser "bob" "Ann@example.com" "battery staple" "user" ""]).any (fun t =>
          t.users.map (fun user => normalizeEmail user.email) =
            ["ann@example.com", "ann@example.com"]) = true := by
    decide +kernel
  obtain ⟨t, ht, hemails⟩ := (Option.any_eq_true _ _).1 hrun
  have hnodup := (h _ t rfl (Path.of_exec ht)).1
  rw [of_decide_eq_true hemails] at hnodup
  exact absurd hnodup (by decide)

/-- One call of each kind. -/
def sampleAccountEvents : List AccountEvent :=
  [.ensureInitialAdmin openContext " " "Admin@example.com" "" "generated" "",
    .register openContext "ann" " Ann@Example.com" "correct horse" "" "",
    .createUser "bob" "bob@example.com" "battery staple" "user" "",
    .createOIDCUser ⟨"subject", "ann@example.org", "Ann", ""⟩ "",
    .confirmEmailChange openContext 3 "BOB@example.org" "123456"]

def sampleIdentities : List (String × String) :=
  [("admin", "admin@example.com"), ("ann", "ann@example.com"), ("bob", "bob@example.org"),
   ("ann2", "ann@example.org")]

theorem account_identity_sample :
    ∃ t, exec AccountStore.step IdentityKept ⟨[], [], 1⟩ sampleAccountEvents = some t ∧
      t.users.map (fun user => (user.username, user.email)) = sampleIdentities ∧ Identified t := by
  have hrun : (exec AccountStore.step IdentityKept ⟨[], [], 1⟩ sampleAccountEvents).any
      (fun t => t.users.map (fun user => (user.username, user.email)) = sampleIdentities) = true := by
    decide +kernel
  obtain ⟨t, ht, husers⟩ := (Option.any_eq_true _ _).1 hrun
  exact ⟨t, ht, of_decide_eq_true husers, account_identity _ t rfl (Path.of_exec ht)⟩

end Subdux
