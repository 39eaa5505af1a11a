import Subdux.Lib.Statements
import Subdux.VerificationCodes
/-!
# Calls that use a verification code

`Register` of `internal/service/auth.go`, and `ResetPassword` and `ConfirmEmailChange` of
`auth_email.go`, statement by statement: each statement may fail, and what a call wrote before
an error stays, except inside a transaction. The steps on one code are those of
`VerificationCodes`, here one after the other.

`failed_calls_keep_iff`: the three calls leave the database alone when they fail, unless the code
was accepted (or, where none is asked for, the account was created) and a later step failed.
-/

namespace Subdux.AuthCalls
open GoStrings Rows Results Statements

/-- The tables that the calls use. `rest` is what `SeedUserDefaults` writes to. -/
structure AuthDB (ρ : Type) where
  accounts : AccountStore
  codes : List EmailVerificationCode
  tokens : List RefreshToken
  nextTokenID : Nat
  settings : String → Option String
  rest : ρ

inductive AuthStatement where
  | registrationSetting | whitelistSetting | verificationSetting | selectCode | closeCode
  | countAttempt | consumeCode
  | countEmails | countUsernames | createUser | seedDefaults | consumeLeft | createToken
  | findUser | updateUser | revokeTokens
  deriving DecidableEq

/-- What a call meets: the clock, the statements that fail, and the libraries. -/
structure AuthRun (ρ : Type) where
  now : Time
  fails : AuthStatement → Bool
  parseAddress : String → Bool
  isEmailDomainAllowed : String → String → Bool
  bcryptMatches : String → String → Bool
  hashPassword : String → Option String
  signAccessToken : Nat → String → String → String → Bool
  refreshToken : Option (String × Time)
  seedUserDefaults : Nat → ρ → ρ

variable {ρ : Type}

abbrev AuthCall (ρ α : Type) := Call (AuthDB ρ) AccountError α

def AuthDB.session (db : AuthDB ρ) : SessionStore := ⟨db.accounts.users, db.tokens, db.nextTokenID⟩

def AuthDB.withSession (db : AuthDB ρ) (s : SessionStore) : AuthDB ρ :=
  { db with
    accounts := { db.accounts with users := s.users }, tokens := s.tokens, nextTokenID := s.nextTokenID }

/-! ## Statements -/

section Calls
variable (run : AuthRun ρ)

/-- A query; `AccountError.database` stands for the error of a statement. -/
def query {α : Type} (statement : AuthStatement) (f : AuthDB ρ → Except AccountError α) : AuthCall ρ α :=
  ask fun db => if run.fails statement then .error .database else f db

def exec (statement : AuthStatement) (f : AuthDB ρ → Except AccountError (AuthDB ρ)) : AuthCall ρ Unit :=
  change fun db => if run.fails statement then .error .database else f db

/-- A check that reads no table. -/
def require {α : Type} (r : Except AccountError α) : AuthCall ρ α := ask fun _ => r

/-- What a library gives, or its error. -/
def orFail {α : Type} : Option α → Except AccountError α
  | some a => .ok a
  | none => .error .database

/-- The default is `false`, also where the query fails. -/
def isOn (statement : AuthStatement) (key : String) (db : AuthDB ρ) : Bool :=
  !run.fails statement && db.settings key = some "true"

def getBoolSystemSetting (statement : AuthStatement) (key : String) : AuthCall ρ Bool :=
  ask fun db => .ok (isOn run statement key db)

/-- The whitelist, if there is one, does not have the domain. -/
def isDomainRefused (email : String) (db : AuthDB ρ) : Bool :=
  let whitelist := (db.settings "email_domain_whitelist").getD ""
  whitelist ≠ "" && !run.isEmailDomainAllowed email whitelist

def enforceEmailDomainWhitelist (email : String) : AuthCall ρ Unit :=
  query run .whitelistSetting fun db =>
    refuseIf (isDomainRefused run email db = true) .emailDomainNotAllowed

def consumeVerificationCode (userID : Option Nat) (email purpose code : String) : AuthCall ρ Unit := do
  require (refuseIf (isVerificationCode (trimSpace code) = false) .verificationCodeInvalid)
  let call := startCall userID email purpose code run.now
  let found ← query run .selectCode fun db => .ok (latest (db.codes.filter call.selects))
  match found with
  | none => throw .verificationCodeInvalid
  | some row =>
    if verificationCodeMaxFailures ≤ row.failedAttempts then do
      attempt (exec run .closeCode fun db =>
        .ok { db with codes := markConsumed row.id run.now db.codes })
      throw .verificationCodeTooManyAttempts
    else if run.bcryptMatches row.codeHash call.code then
      exec run .consumeCode fun db => .ok { db with codes := markConsumed row.id run.now db.codes }
    else do
      attempt (exec run .countAttempt fun db =>
        .ok { db with codes := countFailure row run.now db.codes })
      require (wrongGuess row)

/-- The update of the codes that are left, with the user or without one. -/
def consumeLeft (userID : Option Nat) (email purpose : String) (now : Time)
    (codes : List EmailVerificationCode) :
    List EmailVerificationCode :=
  updateWhere (fun row => (userID.isNone || row.userID = userID) && row.email = email &&
    row.purpose = purpose && row.consumedAt.isNone)
    ({ · with consumedAt := some now }) codes

def issueAuthResponse (user : SessionUser) : AuthCall ρ SessionUser := do
  require (refuseIf (run.signAccessToken user.id user.username user.email user.role = false) .database)
  let token ← require (orFail run.refreshToken)
  exec run .createToken fun db =>
    match insertRefreshToken user.id token.1 token.2 db.session with
    | .ok s => .ok (db.withSession s)
    | .error _ => .error .database
  pure user

/-! ## The calls -/

/-- The rows of the transaction of `Register`. -/
def createUserRows (username email hash : String) (userID : Nat) : AuthCall ρ Unit := do
  exec run .createUser fun db => (insertUser username email hash "user" db.accounts).map
    fun accounts => { db with accounts := accounts }
  exec run .seedDefaults fun db => .ok { db with rest := run.seedUserDefaults userID db.rest }

/-- `Register` after the code: the checks, and the transaction. -/
def createAccount (username email password : String) : AuthCall ρ SessionUser := do
  query run .countEmails fun db =>
    refuseIf (emailExists email 0 db.accounts = true) .emailAlreadyRegistered
  query run .countUsernames fun db =>
    refuseIf (db.accounts.users.any (·.username = username) = true) .usernameAlreadyTaken
  require (validateBcryptPasswordLength password)
  let hash ← require (orFail (run.hashPassword password))
  let userID ← ask fun db => .ok db.accounts.nextUserID
  transaction (createUserRows run username email hash userID)
  pure ⟨userID, username, email, hash, "user", "active", false⟩

/-- The codes that are left for the email, where codes are asked for. -/
def dropRegistrationCodes (verified : Bool) (email : String) : AuthCall ρ Unit :=
  if verified then attempt
    (exec run .consumeLeft fun db =>
      .ok { db with codes := consumeLeft none email "register" run.now db.codes })
  else pure ()

/-- `Register` after the code, to its end. -/
def finishRegistration (verified : Bool) (username email password : String) :
    AuthCall ρ SessionUser := do
  let user ← createAccount run username email password
  dropRegistrationCodes run verified email
  issueAuthResponse run user

def checkRegistrationCode (verify : Bool) (email verificationCode : String) : AuthCall ρ Unit :=
  if verify then do
    require (refuseIf (verificationCode = "") .verificationCodeRequired)
    consumeVerificationCode run none email "register" verificationCode
  else pure ()

def register (username email password verificationCode : String) : AuthCall ρ SessionUser := do
  let enabled ← getBoolSystemSetting run .registrationSetting "registration_enabled"
  require (refuseIf (enabled = false) .registrationDisabled)
  enforceEmailDomainWhitelist run (normalizeEmail email)
  let verify ← getBoolSystemSetting run .verificationSetting "registration_email_verification_enabled"
  checkRegistrationCode run verify (normalizeEmail email) (trimSpace verificationCode)
  finishRegistration run verify (trimSpace username) (normalizeEmail email) password

def sanitizedEmail (email : String) : AuthCall ρ String :=
  require (sanitizeAndValidateEmail
    ⟨true, true, fun _ => true, run.parseAddress, fun _ _ => .ok ()⟩ email)

/-- The rows of the transactions of `ResetPassword` and `ConfirmEmailChange`. -/
def updateUserRows (set : AuthDB ρ → Except AccountError (AuthDB ρ)) (userID : Nat)
    (email purpose : String) : AuthCall ρ Unit := do
  exec run .updateUser set
  exec run .revokeTokens fun db =>
    .ok (db.withSession (revokeAllRefreshTokens userID run.now db.session))
  exec run .consumeLeft fun db =>
    .ok { db with codes := consumeLeft (some userID) email purpose run.now db.codes }

/-- `ResetPassword` after the code. -/
def setPassword (userID : Nat) (email newPassword : String) : AuthCall ρ Unit := do
  require (validateBcryptPasswordLength newPassword)
  let hash ← require (orFail (run.hashPassword newPassword))
  transaction (updateUserRows run
    (fun db => .ok (db.withSession (updateUser userID ({ · with password := hash }) db.session)))
    userID email "password_reset")

def resetPassword (email verificationCode newPassword : String) : AuthCall ρ Unit := do
  let normalizedEmail ← sanitizedEmail run email
  let user ← query run .findUser fun db =>
    match db.accounts.users.find? fun user => ImportService.sqlLower user.email = normalizedEmail with
    | some user => .ok user
    | none => .error .verificationCodeInvalid
  consumeVerificationCode run (some user.id) normalizedEmail "password_reset" verificationCode
  setPassword run user.id normalizedEmail newPassword

/-- The update of the email, under the unique index. -/
def writeEmail (userID : Nat) (email : String) (db : AuthDB ρ) : Except AccountError (AuthDB ρ) :=
  if db.accounts.users.any fun other => other.id ≠ userID ∧ other.email = email then .error .database
  else .ok (db.withSession (updateUser userID ({ · with email := email }) db.session))

/-- `ConfirmEmailChange` after the code. -/
def setEmail (user : SessionUser) (email : String) : AuthCall ρ SessionUser := do
  transaction (updateUserRows run (writeEmail user.id email) user.id email "change_email")
  issueAuthResponse run { user with email := email }

def confirmEmailChange (userID : Nat) (newEmail verificationCode : String) : AuthCall ρ SessionUser := do
  let normalizedEmail ← sanitizedEmail run newEmail
  enforceEmailDomainWhitelist run normalizedEmail
  let user ← query run .findUser fun db =>
    match db.accounts.users.find? (·.id = userID) with
    | some user => .ok user
    | none => .error .userNotFound
  require (refuseIf (normalizeEmail user.email = normalizedEmail) .newEmailSameAsCurrent)
  query run .countEmails fun db =>
    refuseIf (emailExists normalizedEmail userID db.accounts = true) .emailAlreadyRegistered
  consumeVerificationCode run (some user.id) normalizedEmail "change_email" verificationCode
  setEmail run user normalizedEmail

end Calls

/-! ## When a call goes through -/

section Conditions
variable (run : AuthRun ρ) (db : AuthDB ρ)

/-- The row with the code, and the code is accepted. -/
structure Accepted (userID : Option Nat) (email purpose code : String)
    (row : EmailVerificationCode) : Prop where
  digits : isVerificationCode (trimSpace code) = true
  select : run.fails .selectCode = false
  latest : latest (db.codes.filter (startCall userID email purpose code run.now).selects) = some row
  attempts : row.failedAttempts < verificationCodeMaxFailures
  code : run.bcryptMatches row.codeHash (trimSpace code) = true
  consume : run.fails .consumeCode = false

/-- The password has a hash. -/
def Hashable (password : String) : Prop :=
  password.utf8ByteSize ≤ bcryptMaxPasswordBytes ∧ ∃ hash, run.hashPassword password = some hash

/-- An account with the three can be created. -/
structure Creatable (username email password : String) : Prop where
  emails : run.fails .countEmails = false ∧ emailExists email 0 db.accounts = false
  usernames : run.fails .countUsernames = false ∧ db.accounts.users.any (·.username = username) = false
  hash : Hashable run password
  insert : run.fails .createUser = false ∧
    db.accounts.users.any (fun user => user.username = username ∨ user.email = email) = false
  seed : run.fails .seedDefaults = false

/-- A session can be issued. -/
structure TokenIssued (userID : Nat) (username email role : String) : Prop where
  access : run.signAccessToken userID username email role = true
  refresh : ∃ hash expires, run.refreshToken = some (hash, expires) ∧
    db.tokens.any (·.tokenHash = hash) = false
  create : run.fails .createToken = false

/-- The three statements of a transaction. -/
def TransactionRuns : Prop :=
  run.fails .updateUser = false ∧ run.fails .revokeTokens = false ∧ run.fails .consumeLeft = false

def DomainAllowed (email : String) : Prop :=
  run.fails .whitelistSetting = false ∧ isDomainRefused run email db = false

/-- Once its code is accepted, or its account created without one, a registration goes through. -/
def RegistrationSettled (username email password verificationCode : String) : Prop :=
  isOn run .registrationSetting "registration_enabled" db = true →
    DomainAllowed run db (normalizeEmail email) →
    let issued :=
      TokenIssued run db db.accounts.nextUserID (trimSpace username) (normalizeEmail email) "user"
    if isOn run .verificationSetting "registration_email_verification_enabled" db = true then
      (∃ row, Accepted run db none (normalizeEmail email) "register" (trimSpace verificationCode) row) →
        Creatable run db (trimSpace username) (normalizeEmail email) password ∧ issued
    else Creatable run db (trimSpace username) (normalizeEmail email) password → issued

/-- What `sanitizeAndValidateEmail` makes of the email. -/
def Sanitized (email normalizedEmail : String) : Prop :=
  sanitizeAndValidateEmail ⟨true, true, fun _ => true, run.parseAddress, fun _ _ => .ok ()⟩ email =
    .ok normalizedEmail

/-- Once its code is accepted, a reset goes through. -/
def ResetSettled (email verificationCode newPassword : String) : Prop :=
  ∀ normalizedEmail user row, Sanitized run email normalizedEmail → run.fails .findUser = false →
    db.accounts.users.find? (fun user => ImportService.sqlLower user.email = normalizedEmail) =
      some user →
    Accepted run db (some user.id) normalizedEmail "password_reset" verificationCode row →
    Hashable run newPassword ∧ TransactionRuns run

/-- Once its code is accepted, a change of the email goes through. -/
def EmailChangeSettled (userID : Nat) (newEmail verificationCode : String) : Prop :=
  ∀ normalizedEmail user row, Sanitized run newEmail normalizedEmail →
    DomainAllowed run db normalizedEmail →
    run.fails .findUser = false → db.accounts.users.find? (·.id = userID) = some user →
      normalizeEmail user.email ≠ normalizedEmail →
    run.fails .countEmails = false → emailExists normalizedEmail userID db.accounts = false →
    Accepted run db (some user.id) normalizedEmail "change_email" verificationCode row →
    db.accounts.users.any (fun other => other.id ≠ user.id ∧ other.email = normalizedEmail) =
      false ∧ TransactionRuns run ∧
      TokenIssued run db user.id user.username normalizedEmail user.role

end Conditions

/-- The errors of a code that is not accepted. -/
def RefusesCode (err : AccountError) : Prop :=
  err = .verificationCodeInvalid ∨ err = .verificationCodeTooManyAttempts

/-! ## The code -/

section Code
variable {run : AuthRun ρ} {db t : AuthDB ρ} {α : Type} {userID : Option Nat}
  {email purpose code : String} {row : EmailVerificationCode}

/-- The code's rows are consumed. -/
def Consumed (id : Nat) (db : AuthDB ρ) : Prop := ∀ row ∈ db.codes, row.id = id → row.consumedAt.isSome

theorem consumed_markConsumed (id : Nat) (now : Time) :
    Consumed id { db with codes := markConsumed id now db.codes } := by
  intro row hrow hid
  rcases mem_updateWhere_cases hrow with ⟨-, hne⟩ | ⟨r, -, -, rfl⟩
  · exact absurd hid (of_decide_eq_false hne)
  · rfl

/-- The row of an accepted code was not consumed before. -/
theorem Accepted.not_consumed (h : Accepted run db userID email purpose code row) :
    ¬ Consumed row.id db := by
  obtain ⟨hmem, hselects⟩ := List.mem_filter.1 (latest_mem h.latest)
  intro hconsumed
  have hsome := hconsumed row hmem rfl
  simp only [CodeCall.selects, Bool.and_eq_true, Option.isNone_iff_eq_none] at hselects
  rw [hselects.1.1.2] at hsome
  cases hsome

/-- A call of `consumeVerificationCode` accepts the code and marks it, or refuses it, or leaves the
database alone. -/
theorem consume_cases (run : AuthRun ρ) (db : AuthDB ρ) (userID : Option Nat)
    (email purpose code : String) :
    (∃ row, Accepted run db userID email purpose code row ∧
      outcome (consumeVerificationCode run userID email purpose code) db =
      (.ok (), { db with codes := markConsumed row.id run.now db.codes })) ∨
    ((¬ ∃ row, Accepted run db userID email purpose code row) ∧
      ∃ err t, outcome (consumeVerificationCode run userID email purpose code) db =
        (.error err, t) ∧ (RefusesCode err ∨ t = db)) := by
  unfold consumeVerificationCode require
  rw [outcome_ask_bind]
  cases hdigits : isVerificationCode (trimSpace code) with
  | false =>
    exact .inr ⟨fun ⟨_, h⟩ => by simp [h.digits] at hdigits, _, _, rfl, .inl (.inl rfl)⟩
  | true =>
    simp only [refuseIf, Bool.true_eq_false, if_false]
    unfold query
    rw [outcome_ask_bind]
    cases hselect : run.fails .selectCode with
    | true => exact .inr ⟨fun ⟨_, h⟩ => by simp [h.select] at hselect, _, _, rfl, .inr rfl⟩
    | false =>
      simp only [Bool.false_eq_true, if_false]
      cases hfound : latest (db.codes.filter (startCall userID email purpose code run.now).selects) with
      | none => exact .inr ⟨fun ⟨_, h⟩ => by simp [h.latest] at hfound, _, _, rfl, .inl (.inl rfl)⟩
      | some row =>
        -- the row selected is the only one that can be accepted
        have hsame : ∀ other, Accepted run db userID email purpose code other → other = row :=
          fun other h => Option.some.inj (h.latest.symm.trans hfound)
        dsimp only
        by_cases hattempts : verificationCodeMaxFailures ≤ row.failedAttempts
        · rw [if_pos hattempts, outcome_attempt_bind]
          refine .inr ⟨?_, _, _, rfl, .inl (.inr rfl)⟩
          rintro ⟨other, h⟩
          obtain rfl := hsame other h
          exact absurd h.attempts (Nat.not_lt.2 hattempts)
        · rw [if_neg hattempts]
          have hcode : (startCall userID email purpose code run.now).code = trimSpace code := rfl
          rw [hcode]
          cases hmatch : run.bcryptMatches row.codeHash (trimSpace code) with
          | false =>
            rw [if_neg Bool.false_ne_true, outcome_attempt_bind]
            refine .inr ⟨?_, _, _, rfl, .inl ?_⟩
            · rintro ⟨other, h⟩
              obtain rfl := hsame other h
              simp [h.code] at hmatch
            · unfold RefusesCode
              split <;> simp
          | true =>
            rw [if_pos rfl]
            cases hconsume : run.fails .consumeCode with
            | true =>
              refine .inr ⟨fun ⟨_, h⟩ => by simp [h.consume] at hconsume, .database, db, ?_, .inr rfl⟩
              simp [exec, outcome_change, hconsume]
            | false =>
              refine .inl ⟨row, ⟨hdigits, hselect, hfound, Nat.lt_of_not_le hattempts, hmatch,
                hconsume⟩, ?_⟩
              simp [exec, outcome_change, hconsume]

/-- After the code, the rest of a call must succeed. -/
theorem keepsTo_consume_iff {rest : AuthCall ρ α} (hkeeps : ∀ id, Preserves (Consumed id) rest)
    (hraises : Raises (¬ RefusesCode ·) rest) :
    KeepsTo RefusesCode db (do consumeVerificationCode run userID email purpose code; rest) db ↔
      ∀ row, Accepted run db userID email purpose code row →
        Succeeds rest { db with codes := markConsumed row.id run.now db.codes } := by
  rw [keepsTo_bind_iff]
  rcases consume_cases run db userID email purpose code with ⟨row, haccepted, hok⟩ |
    ⟨hrefused, err, t, herr, hexcused⟩
  · have hsame : ∀ other, Accepted run db userID email purpose code other → other = row := fun other h =>
      Option.some.inj (h.latest.symm.trans haccepted.latest)
    have hrest : KeepsTo RefusesCode db rest { db with codes := markConsumed row.id run.now db.codes } ↔
        Succeeds rest { db with codes := markConsumed row.id run.now db.codes } :=
      keepsTo_iff_succeeds haccepted.not_consumed (consumed_markConsumed row.id run.now)
        (hkeeps row.id) hraises
    constructor
    · rintro ⟨-, h⟩ other hother
      obtain rfl := hsame other hother
      exact hrest.1 (h _ _ hok)
    · intro h
      refine ⟨fun err herr => ?_, fun a t ha => ?_⟩
      · rw [hok] at herr
        cases herr
      · rw [hok] at ha
        cases ha
        exact hrest.2 (h row haccepted)
  · refine iff_of_true ⟨fun e he hnot => ?_, fun a u ha => ?_⟩ fun row h => absurd ⟨row, h⟩ hrefused
    · rw [herr] at he ⊢
      cases he
      exact hexcused.resolve_left hnot
    · rw [herr] at ha
      cases ha

end Code

/-! ## After the code -/

section Rest
variable {run : AuthRun ρ} {db t : AuthDB ρ} {α : Type} {id : Nat} {statement : AuthStatement}
  {username email password : String}
  {user : SessionUser}

theorem Consumed.of_codes (h : Consumed id db) (hcodes : t.codes = db.codes) : Consumed id t := by
  unfold Consumed
  rw [hcodes]
  exact h

theorem Consumed.left (h : Consumed id db) (userID : Option Nat) (email purpose : String) (now : Time) :
    Consumed id { db with codes := consumeLeft userID email purpose now db.codes } := by
  intro row hrow hid
  rcases mem_updateWhere_cases hrow with ⟨hmem, -⟩ | ⟨r, -, -, rfl⟩
  · exact h row hmem hid
  · rfl

theorem preserves_exec {P : AuthDB ρ → Prop} {f : AuthDB ρ → Except AccountError (AuthDB ρ)}
    (h : ∀ db t, P db → f db = .ok t → P t) : Preserves P (exec run statement f) := by
  refine preserves_change fun s t hs ht => ?_
  split at ht
  · cases ht
  · exact h s t hs ht

theorem outcome_exec_failed {f : AuthDB ρ → Except AccountError (AuthDB ρ)}
    (h : run.fails statement = true) :
    outcome (exec run statement f) db = (.error .database, db) := by
  rw [exec, outcome_change, if_pos h]

theorem outcome_exec_error {f : AuthDB ρ → Except AccountError (AuthDB ρ)} {err : AccountError}
    (h : run.fails statement = false) (hf : f db = .error err) :
    outcome (exec run statement f) db = (.error err, db) := by
  rw [exec, outcome_change, h, if_neg Bool.false_ne_true, hf]

theorem outcome_exec_ok {f : AuthDB ρ → Except AccountError (AuthDB ρ)}
    (h : run.fails statement = false) (hf : f db = .ok t) :
    outcome (exec run statement f) db = (.ok (), t) := by
  rw [exec, outcome_change, h, if_neg Bool.false_ne_true, hf]

theorem not_refused_database : ¬ RefusesCode .database := by simp [RefusesCode]

theorem raises_query {f : AuthDB ρ → Except AccountError α}
    (h : ∀ db err, f db = .error err → ¬ RefusesCode err) :
    Raises (¬ RefusesCode ·) (query run statement f) := by
  refine raises_ask fun s err herr => ?_
  split at herr
  · cases herr
    exact not_refused_database
  · exact h s err herr

theorem raises_exec {f : AuthDB ρ → Except AccountError (AuthDB ρ)}
    (h : ∀ db err, f db = .error err → ¬ RefusesCode err) :
    Raises (¬ RefusesCode ·) (exec run statement f) := by
  refine raises_change fun s err herr => ?_
  split at herr
  · cases herr
    exact not_refused_database
  · exact h s err herr

theorem raises_refuseIf {p : Prop} [Decidable p] {e : AccountError} (h : ¬ RefusesCode e) :
    ∀ err, (refuseIf p e : Except AccountError Unit) = .error err → ¬ RefusesCode err := by
  intro err herr
  unfold refuseIf at herr
  split at herr
  · cases herr
    exact h
  · cases herr

theorem raises_orFail {β : Type} (o : Option β) :
    Raises (¬ RefusesCode ·) (require (orFail o) : AuthCall ρ β) := by
  refine raises_ask fun s err herr => ?_
  cases o with
  | none =>
    cases herr
    exact not_refused_database
  | some b => cases herr

theorem orFail_ok {β : Type} {o : Option β} {b : β} : orFail o = .ok b ↔ o = some b := by
  cases o <;> simp [orFail]

/-! ### Sessions -/

theorem insertRefreshToken_keeps {userID : Nat} {hash : String} {expires : Time} {s s' : SessionStore}
    (h : insertRefreshToken userID hash expires s = .ok s') : s'.users = s.users := by
  unfold insertRefreshToken at h
  split at h
  · cases h
  · cases h
    rfl

theorem issueAuthResponse_preserves {P : AuthDB ρ → Prop}
    (h : ∀ db t, P db → t.codes = db.codes → t.accounts = db.accounts → P t) :
    Preserves P (issueAuthResponse run user) := by
  refine (readOnly_ask _).preserves.bind fun _ => (readOnly_ask _).preserves.bind fun token =>
    (preserves_exec fun db t hdb ht => ?_).bind fun _ => (readOnly_pure _).preserves
  split at ht
  · rename_i s hs
    cases ht
    refine h db _ hdb rfl ?_
    unfold AuthDB.withSession
    rw [insertRefreshToken_keeps hs]
    rfl
  · cases ht

theorem issueAuthResponse_raises : Raises (¬ RefusesCode ·) (issueAuthResponse run user) := by
  refine (raises_ask fun _ => raises_refuseIf not_refused_database).bind fun _ =>
    (raises_orFail _).bind fun token =>
    (raises_exec fun db err herr => ?_).bind fun _ => raises_pure _
  split at herr
  · cases herr
  · cases herr
    exact not_refused_database

theorem issueAuthResponse_succeeds (huser : t.accounts.users.any (·.id = user.id) = true)
    (htokens : t.tokens.map (·.tokenHash) = db.tokens.map (·.tokenHash)) :
    Succeeds (issueAuthResponse run user) t ↔
    TokenIssued run db user.id user.username user.email user.role := by
  have hany : ∀ hash, t.tokens.any (·.tokenHash = hash) = db.tokens.any (·.tokenHash = hash) := by
    intro hash
    have hmap := congrArg (List.any · fun h => decide (h = hash)) htokens
    simpa [List.any_map, Function.comp_def] using hmap
  unfold issueAuthResponse require exec
  rw [succeeds_ask_bind]
  constructor
  · rintro ⟨_, haccess, h⟩
    obtain ⟨⟨hash, expires⟩, htoken, h⟩ := (succeeds_ask_bind _).1 h
    obtain ⟨u, hcreate, -⟩ := (succeeds_change_bind _ _).1 h
    split at hcreate
    · cases hcreate
    · rename_i hfails
      refine ⟨by simpa using refuseIf_ok haccess, ⟨hash, expires, orFail_ok.1 htoken, ?_⟩,
        by simpa using hfails⟩
      rw [← hany]
      by_contra htaken
      have hinsert : insertRefreshToken user.id hash expires t.session = .error .database := by
        unfold insertRefreshToken
        rw [if_pos]
        simp only [AuthDB.session, Bool.or_eq_true]
        exact .inl (by simpa using htaken)
      dsimp only at hcreate
      rw [hinsert] at hcreate
      cases hcreate
  · rintro ⟨haccess, ⟨hash, expires, hrefresh, hfree⟩, hcreate⟩
    refine ⟨(), by simp [refuseIf, haccess],
      (succeeds_ask_bind _).2 ⟨(hash, expires), orFail_ok.2 hrefresh, ?_⟩⟩
    have hinsert : ∃ s, insertRefreshToken user.id hash expires t.session = .ok s := by
      refine ⟨_, if_neg ?_⟩
      simp only [AuthDB.session, hany, hfree, huser]
      decide
    obtain ⟨s, hs⟩ := hinsert
    refine (succeeds_change_bind _ _).2 ⟨t.withSession s, ?_, succeeds_pure _⟩
    rw [hcreate, if_neg Bool.false_ne_true]
    dsimp only
    rw [hs]

/-! ### Accounts -/

/-- What `createAccount` writes. -/
def AuthDB.withAccount (db : AuthDB ρ) (run : AuthRun ρ) (user : SessionUser) : AuthDB ρ :=
  { db with
    accounts :=
      { db.accounts with users := db.accounts.users ++ [user], nextUserID := db.accounts.nextUserID + 1 }
    rest := run.seedUserDefaults user.id db.rest }

theorem createUserRows_cases (run : AuthRun ρ) (db : AuthDB ρ) (username email hash : String) :
    (run.fails .createUser = false ∧
      db.accounts.users.any (fun user => user.username = username ∨ user.email = email) = false ∧
      run.fails .seedDefaults = false ∧
        outcome (createUserRows run username email hash db.accounts.nextUserID) db =
        (.ok (), db.withAccount run
          ⟨db.accounts.nextUserID, username, email, hash, "user", "active", false⟩)) ∨
    (¬ (run.fails .createUser = false ∧
      db.accounts.users.any (fun user => user.username = username ∨ user.email = email) = false ∧
      run.fails .seedDefaults = false) ∧ ∃ err t,
        outcome (createUserRows run username email hash db.accounts.nextUserID) db =
        (.error err, t)) := by
  unfold createUserRows
  cases hcreate : run.fails .createUser with
  | true => exact .inr ⟨fun h => (nomatch h.1), _, _, outcome_bind_error (outcome_exec_failed hcreate)⟩
  | false =>
  cases hfree : db.accounts.users.any (fun user => user.username = username ∨ user.email = email) with
  | true =>
    exact .inr ⟨fun h => (nomatch h.2.1), _, _,
      outcome_bind_error (outcome_exec_error hcreate (by rw [insertUser, hfree]; rfl))⟩
  | false =>
  have hinsert : outcome (exec run .createUser fun db =>
      (insertUser username email hash "user" db.accounts).map fun accounts =>
        { db with accounts := accounts }) db = (.ok (), _) :=
    outcome_exec_ok hcreate (by rw [insertUser, hfree]; rfl)
  rw [outcome_bind_ok hinsert]
  cases hseed : run.fails .seedDefaults with
  | true => exact .inr ⟨fun h => (nomatch h.2.2), _, _, outcome_exec_failed hseed⟩
  | false => exact .inl ⟨rfl, rfl, rfl, outcome_exec_ok hseed rfl⟩

/-- An account is created, or the database is left alone. -/
theorem createAccount_cases (run : AuthRun ρ) (db : AuthDB ρ) (username email password : String) :
    (Creatable run db username email password ∧ ∃ hash,
      outcome (createAccount run username email password) db =
      (.ok ⟨db.accounts.nextUserID, username, email, hash, "user", "active", false⟩,
        db.withAccount run ⟨db.accounts.nextUserID, username, email, hash, "user", "active", false⟩)) ∨
    (¬ Creatable run db username email password ∧ ∃ err,
      outcome (createAccount run username email password) db = (.error err, db)) := by
  unfold createAccount query require
  simp only [outcome_ask_bind]
  cases hcount : run.fails .countEmails with
  | true => exact .inr ⟨fun h => by simp [h.emails.1] at hcount, _, rfl⟩
  | false =>
  cases hemail : emailExists email 0 db.accounts with
  | true => exact .inr ⟨fun h => by simp [h.emails.2] at hemail, _, by simp [refuseIf]; rfl⟩
  | false =>
  cases hcount' : run.fails .countUsernames with
  | true => exact .inr ⟨fun h => by simp [h.usernames.1] at hcount', _, by simp [refuseIf]; rfl⟩
  | false =>
  cases hname : db.accounts.users.any (·.username = username) with
  | true => exact .inr ⟨fun h => by simp [h.usernames.2] at hname, _, by simp [refuseIf]; rfl⟩
  | false =>
  by_cases hlength : bcryptMaxPasswordBytes < password.utf8ByteSize
  · exact .inr ⟨fun h => absurd h.hash.1 (Nat.not_le.2 hlength), _,
      by simp [refuseIf, validateBcryptPasswordLength, hlength]; rfl⟩
  cases hhash : run.hashPassword password with
  | none =>
    refine .inr ⟨fun h => ?_, _, by simp [refuseIf, validateBcryptPasswordLength, hlength, orFail]; rfl⟩
    obtain ⟨hash, hsome⟩ := h.hash.2
    rw [hhash] at hsome
    cases hsome
  | some hash =>
  simp only [refuseIf, validateBcryptPasswordLength, hlength, orFail, Bool.false_eq_true, if_false]
  rcases createUserRows_cases run db username email hash with ⟨hcreate, hfree, hseed, hok⟩ |
    ⟨hnot, err, t, herr⟩
  · refine .inl ⟨⟨⟨hcount, hemail⟩, ⟨hcount', hname⟩, ⟨Nat.not_lt.1 hlength, hash, hhash⟩,
      ⟨hcreate, hfree⟩, hseed⟩, hash, ?_⟩
    exact outcome_bind_ok (outcome_transaction_ok hok)
  · refine .inr ⟨fun h => hnot ⟨h.insert.1, h.insert.2, h.seed⟩, err, ?_⟩
    exact outcome_bind_error (outcome_transaction_error herr)

theorem createAccount_preserves :
    Preserves (Consumed id) (createAccount run username email password) := by
  refine (readOnly_ask _).preserves.bind fun _ => (readOnly_ask _).preserves.bind fun _ =>
    (readOnly_ask _).preserves.bind fun _ =>
    (readOnly_ask _).preserves.bind fun hash => (readOnly_ask _).preserves.bind fun userID =>
      (Preserves.transaction
        (Preserves.bind (preserves_exec fun db t hdb ht => ?_) fun _ =>
          preserves_exec fun db t hdb ht => ?_)).bind
        fun _ => (readOnly_pure _).preserves
  · obtain ⟨accounts, -, rfl⟩ := map_eq_ok ht
    exact hdb.of_codes rfl
  · cases ht
    exact hdb.of_codes rfl

theorem createAccount_raises : Raises (¬ RefusesCode ·) (createAccount run username email password) := by
  refine (raises_query fun _ => raises_refuseIf (by simp [RefusesCode])).bind fun _ =>
    (raises_query fun _ => raises_refuseIf (by simp [RefusesCode])).bind fun _ =>
      (raises_ask fun _ => raises_refuseIf (by simp [RefusesCode])).bind fun _ =>
        (raises_orFail _).bind fun hash =>
        (raises_ask fun _ _ h => by cases h).bind fun userID =>
          (Raises.transaction
            ((raises_exec fun db err herr => ?_).bind fun _ => raises_exec fun _ _ h => by cases h)).bind
            fun _ => raises_pure _
  unfold insertUser at herr
  split at herr
  · cases herr
    exact not_refused_database
  · cases herr

/-- The session after the account, where the codes may have been dropped. -/
theorem issue_after_account (t db : AuthDB ρ) {verified : Bool} (htokens : t.tokens = db.tokens)
    {hash : String} :
    Succeeds (do
        dropRegistrationCodes run verified email
        issueAuthResponse run
          ⟨db.accounts.nextUserID, username, email, hash, "user", "active", false⟩)
      (t.withAccount run ⟨db.accounts.nextUserID, username, email, hash, "user", "active", false⟩) ↔
        TokenIssued run db db.accounts.nextUserID username email "user" := by
  have hissue : ∀ u : AuthDB ρ, u.accounts.users = t.accounts.users ++
      [⟨db.accounts.nextUserID, username, email, hash, "user", "active", false⟩] →
      u.tokens = db.tokens →
      (Succeeds (issueAuthResponse run
        ⟨db.accounts.nextUserID, username, email, hash, "user", "active", false⟩) u ↔
        TokenIssued run db db.accounts.nextUserID username email "user") := by
    intro u husers hu
    refine issueAuthResponse_succeeds ?_ (by rw [hu])
    rw [husers]
    simp
  cases verified with
  | false => exact (succeeds_bind_pure _).trans (hissue _ rfl htokens)
  | true =>
    unfold dropRegistrationCodes
    rw [if_pos rfl, succeeds_attempt_bind]
    -- the codes are all that the statement writes
    have hkeeps : Preserves (fun u : AuthDB ρ => u.accounts.users = t.accounts.users ++
        [⟨db.accounts.nextUserID, username, email, hash, "user", "active", false⟩] ∧
         u.tokens = db.tokens)
        (exec run .consumeLeft fun db =>
          .ok { db with codes := consumeLeft none email "register" run.now db.codes }) :=
      preserves_exec fun u v hu hv => by cases hv; exact hu
    obtain ⟨husers, hu⟩ :=
      hkeeps (t.withAccount run ⟨db.accounts.nextUserID, username, email, hash, "user", "active", false⟩)
      ⟨rfl, htokens⟩
    exact hissue _ husers hu

/-! ### Passwords and emails -/

theorem updateUserRows_preserves {userID : Nat} {set : AuthDB ρ → Except AccountError (AuthDB ρ)}
    {purpose : String} (hset : ∀ db t, set db = .ok t → t.codes = db.codes) :
    Preserves (Consumed id) (updateUserRows run set userID email purpose) := by
  refine (preserves_exec fun db t hdb ht => hdb.of_codes (hset db t ht)).bind fun _ =>
    (preserves_exec fun db t hdb ht => ?_).bind fun _ => preserves_exec fun db t hdb ht => ?_
  · cases ht
    exact hdb.of_codes rfl
  · cases ht
    exact hdb.left _ _ _ _

theorem updateUserRows_raises {userID : Nat} {set : AuthDB ρ → Except AccountError (AuthDB ρ)}
    {purpose : String} (hset : ∀ db err, set db = .error err → ¬ RefusesCode err) :
    Raises (¬ RefusesCode ·) (updateUserRows run set userID email purpose) :=
  (raises_exec hset).bind fun _ => (raises_exec fun _ _ h => by cases h).bind fun _ =>
    raises_exec fun _ _ h => by cases h

/-- The rows are written when the update is, and no statement fails; the users are those of the
update. -/
theorem updateUserRows_cases (run : AuthRun ρ) (t : AuthDB ρ)
    (set : AuthDB ρ → Except AccountError (AuthDB ρ)) (userID : Nat) (email purpose : String) :
    (∃ u v, set t = .ok u ∧ TransactionRuns run ∧
      outcome (updateUserRows run set userID email purpose) t = (.ok (), v) ∧
      v.accounts.users = u.accounts.users ∧ v.tokens.map (·.tokenHash) = u.tokens.map (·.tokenHash)) ∨
    (¬ ((∃ u, set t = .ok u) ∧ TransactionRuns run) ∧
      ∃ err v, outcome (updateUserRows run set userID email purpose) t = (.error err, v)) := by
  unfold updateUserRows
  cases hupdate : run.fails .updateUser with
  | true =>
    exact .inr ⟨fun h => by simp [h.2.1] at hupdate, _, _,
      outcome_bind_error (outcome_exec_failed hupdate)⟩
  | false =>
  cases hset : set t with
  | error err =>
    exact .inr ⟨fun h => (nomatch h.1.choose_spec), _, _,
      outcome_bind_error (outcome_exec_error hupdate hset)⟩
  | ok u =>
  rw [outcome_bind_ok (outcome_exec_ok hupdate hset)]
  cases hrevoke : run.fails .revokeTokens with
  | true =>
    exact .inr ⟨fun h => by simp [h.2.2.1] at hrevoke, _, _,
      outcome_bind_error (outcome_exec_failed hrevoke)⟩
  | false =>
  have hrevoked : outcome
      (exec run .revokeTokens fun db =>
        .ok (db.withSession (revokeAllRefreshTokens userID run.now db.session))) u =
      (.ok (), u.withSession (revokeAllRefreshTokens userID run.now u.session)) :=
        outcome_exec_ok hrevoke rfl
  rw [outcome_bind_ok hrevoked]
  cases hleft : run.fails .consumeLeft with
  | true => exact .inr ⟨fun h => by simp [h.2.2.2] at hleft, _, _, outcome_exec_failed hleft⟩
  | false =>
    refine .inl ⟨u, _, rfl, ⟨hupdate, hrevoke, hleft⟩, outcome_exec_ok hleft rfl, rfl, ?_⟩
    exact map_updateWhere (fun token : RefreshToken => token.tokenHash) fun _ => rfl

theorem setPassword_preserves {userID : Nat} :
    Preserves (Consumed id) (setPassword run userID email password) :=
  (readOnly_ask _).preserves.bind fun _ => (readOnly_ask _).preserves.bind fun hash =>
    Preserves.transaction (updateUserRows_preserves fun _ _ ht => by cases ht; rfl)

theorem setPassword_raises {userID : Nat} :
    Raises (¬ RefusesCode ·) (setPassword run userID email password) :=
  (raises_ask fun _ => raises_refuseIf (by simp [RefusesCode])).bind fun _ =>
    (raises_orFail _).bind fun hash =>
    Raises.transaction (updateUserRows_raises fun _ _ h => by cases h)

theorem setPassword_succeeds {userID : Nat} :
    Succeeds (setPassword run userID email password) t ↔ Hashable run password ∧
    TransactionRuns run := by
  unfold setPassword require
  rw [succeeds_ask_bind]
  constructor
  · rintro ⟨_, hlength, h⟩
    obtain ⟨hash, hhash, h⟩ := (succeeds_ask_bind _).1 h
    refine ⟨⟨Nat.not_lt.1 (refuseIf_ok hlength), hash, orFail_ok.1 hhash⟩, ?_⟩
    obtain ⟨_, v, hv⟩ := succeeds_transaction.1 h
    rcases updateUserRows_cases run t _ userID email "password_reset" with ⟨_, _, -, hruns, -⟩ |
      ⟨-, err, w, herr⟩
    · exact hruns
    · rw [herr] at hv
      cases hv
  · rintro ⟨⟨hlength, hash, hhash⟩, hruns⟩
    refine ⟨(), if_neg (Nat.not_lt.2 hlength), (succeeds_ask_bind _).2
      ⟨hash, orFail_ok.2 hhash, succeeds_transaction.2 ?_⟩⟩
    rcases updateUserRows_cases run t _ userID email "password_reset" with ⟨_, v, -, -, hok, -⟩ |
      ⟨hnot, -⟩
    · exact ⟨_, v, hok⟩
    · exact absurd ⟨⟨_, rfl⟩, hruns⟩ hnot

theorem writeEmail_ok {userID : Nat} {u : AuthDB ρ} (h : writeEmail userID email t = .ok u) :
    u.codes = t.codes ∧ u.tokens = t.tokens ∧ u.accounts.users.map (·.id) = t.accounts.users.map
    (·.id) := by
  unfold writeEmail at h
  split at h
  · cases h
  · cases h
    exact ⟨rfl, rfl, map_updateWhere (fun user : SessionUser => user.id) fun _ => rfl⟩

theorem writeEmail_ok_iff {userID : Nat} : (∃ u, writeEmail userID email t = .ok u) ↔
    t.accounts.users.any (fun other => other.id ≠ userID ∧ other.email = email) = false := by
  unfold writeEmail
  cases t.accounts.users.any fun other => other.id ≠ userID ∧ other.email = email with
  | true => exact iff_of_false (fun ⟨_, h⟩ => (nomatch h)) (fun h => (nomatch h))
  | false => exact iff_of_true ⟨_, rfl⟩ rfl

theorem writeEmail_error {userID : Nat} {err : AccountError}
    (h : writeEmail userID email t = .error err) : ¬ RefusesCode err := by
  unfold writeEmail at h
  split at h
  · cases h
    exact not_refused_database
  · cases h

theorem setEmail_preserves : Preserves (Consumed id) (setEmail run user email) :=
  (Preserves.transaction (updateUserRows_preserves fun _ _ ht => (writeEmail_ok ht).1)).bind fun _ =>
    issueAuthResponse_preserves fun _ _ hdb hcodes _ => hdb.of_codes hcodes

theorem setEmail_raises : Raises (¬ RefusesCode ·) (setEmail run user email) :=
  (Raises.transaction (updateUserRows_raises fun _ _ h => writeEmail_error h)).bind fun _ =>
    issueAuthResponse_raises

theorem setEmail_succeeds (huser : user ∈ db.accounts.users) (codes : List EmailVerificationCode) :
    Succeeds (setEmail run user email) { db with codes := codes } ↔
      db.accounts.users.any (fun other => other.id ≠ user.id ∧ other.email = email) = false ∧
        TransactionRuns run ∧
        TokenIssued run db user.id user.username email user.role := by
  unfold setEmail
  have hwrite : (∃ u, writeEmail user.id email { db with codes := codes } = .ok u) ↔ _ :=
    writeEmail_ok_iff
  rw [succeeds_transaction_bind, succeeds_bind_iff, ← hwrite]
  rcases updateUserRows_cases run { db with codes := codes }
    (writeEmail user.id email) user.id email "change_email" with
    ⟨u, v, hu, hruns, hok, hv, hvtokens⟩ | ⟨hnot, err, v, herr⟩
  · obtain ⟨-, hutokens, hids⟩ := writeEmail_ok hu
    have hexists : v.accounts.users.any (·.id = user.id) = true := by
      rw [hv]
      have hmem : user.id ∈ u.accounts.users.map (·.id) := hids ▸ List.mem_map_of_mem huser
      obtain ⟨other, hother, hid⟩ := List.mem_map.1 hmem
      exact List.any_eq_true.2 ⟨other, hother, decide_eq_true hid⟩
    have hissue : Succeeds (issueAuthResponse run { user with email := email }) v ↔
        TokenIssued run db user.id user.username email user.role :=
      issueAuthResponse_succeeds hexists (by rw [hvtokens, hutokens])
    rw [hok]
    constructor
    · rintro ⟨_, _, ⟨⟩, h⟩
      exact ⟨⟨u, hu⟩, hruns, hissue.1 h⟩
    · rintro ⟨-, -, h⟩
      exact ⟨(), v, rfl, hissue.2 h⟩
  · rw [herr]
    refine iff_of_false ?_ fun h => hnot ⟨h.1, h.2.1⟩
    rintro ⟨_, _, h, -⟩
    cases h

end Rest

/-! ## The calls -/

section Main
variable {run : AuthRun ρ} {db : AuthDB ρ} {username email password code : String}

theorem finishRegistration_preserves {id : Nat} {verified : Bool} :
    Preserves (Consumed id) (finishRegistration run verified username email password) := by
  refine createAccount_preserves.bind fun user => Preserves.bind ?_ fun _ =>
    issueAuthResponse_preserves fun _ _ hdb hcodes _ => hdb.of_codes hcodes
  cases verified with
  | false => exact (readOnly_pure _).preserves
  | true =>
    exact Preserves.attempt (preserves_exec fun db t hdb ht => by cases ht; exact hdb.left _ _ _ _)

theorem finishRegistration_raises {verified : Bool} :
    Raises (¬ RefusesCode ·) (finishRegistration run verified username email password) := by
  refine createAccount_raises.bind fun user => Raises.bind ?_ fun _ => issueAuthResponse_raises
  cases verified with
  | false => exact raises_pure _
  | true => exact raises_attempt _

/-- With the code consumed, an account must be created and a session issued. -/
theorem finishRegistration_succeeds (codes : List EmailVerificationCode) :
    Succeeds (finishRegistration run true username email password) { db with codes := codes } ↔
      Creatable run db username email password ∧
        TokenIssued run db db.accounts.nextUserID username email "user" := by
  unfold finishRegistration
  rw [succeeds_bind_iff]
  rcases createAccount_cases run { db with codes := codes } username email password
    with ⟨hcreatable, hash, hok⟩ | ⟨hnot, err, herr⟩
  · have hcreatable' : Creatable run db username email password :=
      ⟨hcreatable.emails, hcreatable.usernames, hcreatable.hash, hcreatable.insert, hcreatable.seed⟩
    have hissue : Succeeds (do
        dropRegistrationCodes run true email
        issueAuthResponse run ⟨db.accounts.nextUserID, username, email, hash, "user", "active", false⟩)
          (AuthDB.withAccount { db with codes := codes } run
            ⟨db.accounts.nextUserID, username, email, hash, "user", "active", false⟩) ↔
        TokenIssued run db db.accounts.nextUserID username email "user" :=
      issue_after_account { db with codes := codes } db rfl
    rw [hok]
    constructor
    · rintro ⟨_, _, ⟨⟩, h⟩
      exact ⟨hcreatable', hissue.1 h⟩
    · rintro ⟨-, h⟩
      exact ⟨_, _, rfl, hissue.2 h⟩
  · rw [herr]
    refine iff_of_false ?_ fun h => hnot ⟨h.1.emails, h.1.usernames, h.1.hash, h.1.insert, h.1.seed⟩
    rintro ⟨_, _, h, -⟩
    cases h

/-- Without a code, the account that is created must get a session. -/
theorem finishRegistration_keeps :
    KeepsTo RefusesCode db (finishRegistration run false username email password) db ↔
    (Creatable run db username email password →
      TokenIssued run db db.accounts.nextUserID username email "user") := by
  unfold finishRegistration
  rw [keepsTo_bind_iff]
  rcases createAccount_cases run db username email password with ⟨hcreatable, hash, hok⟩ |
    ⟨hnot, err, herr⟩
  · -- the database has one user more
    have hrest : KeepsTo RefusesCode db (do
        dropRegistrationCodes run false email
        issueAuthResponse run ⟨db.accounts.nextUserID, username, email, hash, "user", "active", false⟩)
          (db.withAccount run
            ⟨db.accounts.nextUserID, username, email, hash, "user", "active", false⟩) ↔ _ :=
      keepsTo_iff_succeeds (P := fun t => db.accounts.users.length < t.accounts.users.length)
        (Nat.lt_irrefl _)
        (by simp [AuthDB.withAccount])
        ((readOnly_pure _).preserves.bind fun _ => issueAuthResponse_preserves
          fun _ _ hlt _ haccounts => haccounts ▸ hlt)
        ((raises_pure _).bind fun _ => issueAuthResponse_raises)
    rw [issue_after_account db db rfl] at hrest
    constructor
    · exact fun h _ => hrest.1 (h.2 _ _ hok)
    · refine fun h => ⟨fun err herr => ?_, fun user t hother => ?_⟩
      · rw [hok] at herr
        cases herr
      · rw [hok] at hother
        cases hother
        exact hrest.2 (h hcreatable)
  · refine iff_of_true ⟨fun e _ _ => ?_, fun user t hok => ?_⟩ fun h => absurd h hnot
    · rw [herr]
    · rw [herr] at hok
      cases hok

theorem keepsTo_require_iff {α β : Type} {r : Except AccountError α} {f : α → AuthCall ρ β} :
    KeepsTo RefusesCode db (require r >>= f) db ↔ ∀ a, r = .ok a → KeepsTo RefusesCode db (f a) db :=
  (readOnly_ask _).keepsTo_bind_iff

theorem keepsTo_query_iff {α β : Type} {statement : AuthStatement}
    {g : AuthDB ρ → Except AccountError α} {f : α → AuthCall ρ β} :
    KeepsTo RefusesCode db (query run statement g >>= f) db ↔
      ∀ a, run.fails statement = false → g db = .ok a → KeepsTo RefusesCode db (f a) db := by
  refine ((readOnly_ask _).keepsTo_bind_iff).trans (forall_congr' fun a => ?_)
  rw [outcome_ask]
  cases run.fails statement <;> simp

theorem refuseIf_eq_ok {p : Prop} [Decidable p] {e : AccountError} {u : Unit} :
    refuseIf p e = .ok u ↔ ¬ p := by
  unfold refuseIf
  split <;> simp_all

theorem Accepted.code_ne {userID : Option Nat} {purpose : String} {row : EmailVerificationCode}
    (h : Accepted run db userID email purpose code row) : code ≠ "" := by
  rintro rfl
  exact absurd h.digits (by decide +kernel)

theorem register_keeps_iff {verificationCode : String} :
    KeepsTo RefusesCode db (register run username email password verificationCode) db ↔
    RegistrationSettled run db username email password verificationCode := by
  unfold register getBoolSystemSetting enforceEmailDomainWhitelist RegistrationSettled DomainAllowed
  simp only [(readOnly_ask _).keepsTo_bind_iff, keepsTo_require_iff, keepsTo_query_iff,
    refuseIf_eq_ok, outcome_ask, Except.ok.injEq,
    forall_eq', Bool.not_eq_false, Bool.not_eq_true, forall_const, and_imp]
  refine forall_congr' fun _ => forall_congr' fun _ => forall_congr' fun _ => ?_
  cases isOn run .verificationSetting "registration_email_verification_enabled" db with
  | false =>
    have hpure : checkRegistrationCode run false (normalizeEmail email)
        (trimSpace verificationCode) = pure () := rfl
    rw [hpure, (readOnly_pure _).keepsTo_bind_iff, if_neg Bool.false_ne_true, ← finishRegistration_keeps]
    simp
  | true =>
    unfold checkRegistrationCode
    rw [if_pos rfl, if_pos rfl, bind_assoc, keepsTo_require_iff]
    simp only [refuseIf_eq_ok, forall_const, keepsTo_consume_iff
      (fun _ => finishRegistration_preserves) finishRegistration_raises,
      finishRegistration_succeeds]
    constructor
    · rintro h ⟨row, haccepted⟩
      exact h haccepted.code_ne row haccepted
    · exact fun h _ row haccepted => h ⟨row, haccepted⟩

theorem resetPassword_keeps_iff {newPassword : String} :
    KeepsTo RefusesCode db (resetPassword run email code newPassword) db ↔
    ResetSettled run db email code newPassword := by
  unfold resetPassword sanitizedEmail ResetSettled Sanitized
  simp only [keepsTo_require_iff, keepsTo_query_iff, keepsTo_consume_iff
    (fun _ => setPassword_preserves) setPassword_raises,
    setPassword_succeeds]
  constructor
  · intro h normalizedEmail user row hemail hfails hfound haccepted
    exact h normalizedEmail hemail user hfails (by rw [hfound]) row haccepted
  · intro h normalizedEmail hemail user hfails hfound row haccepted
    refine h normalizedEmail user row hemail hfails ?_ haccepted
    split at hfound
    · rename_i found hfind
      cases hfound
      exact hfind
    · cases hfound

theorem confirmEmailChange_keeps_iff {userID : Nat} :
    KeepsTo RefusesCode db (confirmEmailChange run userID email code) db ↔
    EmailChangeSettled run db userID email code := by
  unfold confirmEmailChange sanitizedEmail enforceEmailDomainWhitelist EmailChangeSettled Sanitized
    DomainAllowed
  simp only [keepsTo_require_iff, keepsTo_query_iff, refuseIf_eq_ok, forall_const, Bool.not_eq_true,
    keepsTo_consume_iff (fun _ => setEmail_preserves) setEmail_raises]
  constructor
  · intro h normalizedEmail user row hemail hallowed hfails hfound hother hcount hexists haccepted
    exact (setEmail_succeeds (List.mem_of_find?_eq_some hfound) _).1
      (h normalizedEmail hemail hallowed.1 hallowed.2 user hfails
        (by rw [hfound]) hother hcount hexists row haccepted)
  · intro h normalizedEmail hemail hwhitelist hallowed user hfails hfound hother hcount hexists row
      haccepted
    have hfind : db.accounts.users.find? (·.id = userID) = some user := by
      split at hfound
      · rename_i found hfind
        cases hfound
        exact hfind
      · cases hfound
    exact (setEmail_succeeds (List.mem_of_find?_eq_some hfind) _).2
      (h normalizedEmail user row hemail
        ⟨hwhitelist, hallowed⟩ hfails hfind hother hcount hexists haccepted)

/-- The three calls leave the database alone when they fail with another error than that of a
refused code, exactly when what comes after the code (or, in a registration without one, after
the account) goes through. -/
theorem failed_calls_keep_iff (run : AuthRun ρ) (db : AuthDB ρ) :
    (∀ username email password verificationCode, KeepsTo RefusesCode db
      (register run username email password verificationCode) db ↔
      RegistrationSettled run db username email password verificationCode) ∧
    (∀ email verificationCode newPassword, KeepsTo RefusesCode db
      (resetPassword run email verificationCode newPassword) db ↔
      ResetSettled run db email verificationCode newPassword) ∧
    (∀ userID newEmail verificationCode, KeepsTo RefusesCode db
      (confirmEmailChange run userID newEmail verificationCode) db ↔
      EmailChangeSettled run db userID newEmail verificationCode) :=
  ⟨fun _ _ _ _ => register_keeps_iff, fun _ _ _ => resetPassword_keeps_iff, fun _ _ _ =>
    confirmEmailChange_keeps_iff⟩

/-! ### A password that is too long -/

/-- Codes and passwords are their own hashes, and no statement fails. -/
def sampleRun : AuthRun Unit :=
  ⟨⟨0, 0⟩, fun _ => false, fun _ => true, fun _ _ => true, fun hash code => hash = code, some,
    fun _ _ _ _ => true, some ("t", ⟨1, 0⟩), fun _ r => r⟩

/-- A user who has been sent the code 123456. -/
def sampleDB : AuthDB Unit where
  accounts := ⟨[⟨1, "ann", "a@example.com", "h", "user", "active", false⟩], [], 2⟩
  codes := [⟨1, some 1, "a@example.com", "password_reset", "123456", 0, ⟨1, 0⟩, none, ⟨0, 0⟩⟩]
  tokens := []
  nextTokenID := 1
  settings := fun _ => none
  rest := ()

/-- The reset fails because of the password, and the code is consumed. -/
theorem reset_consumes_code :
    ¬ ∀ (run : AuthRun Unit) (db : AuthDB Unit) (email verificationCode newPassword : String),
      KeepsTo RefusesCode db (resetPassword run email verificationCode newPassword) db := by
  intro h
  have hkeeps :=
    h sampleRun sampleDB "a@example.com" "123456"
      (String.ofList (List.replicate 73 'a')) .passwordTooLong
    (of_decide_eq_true (by decide +kernel)) (by simp [RefusesCode])
  have hcodes := congrArg AuthDB.codes hkeeps
  revert hcodes
  decide +kernel

end Main

end Subdux.AuthCalls
