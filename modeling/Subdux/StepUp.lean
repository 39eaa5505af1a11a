import Subdux.OidcCallbacks
import Subdux.ReauthTickets
/-!
# Step-up authentication

Before a backup or a restore an administrator proves to be present, with the password, a passkey or
the connected OIDC identity, and gets a ticket for one call (`internal/service/reauth.go`,
`passkey.go`). The tickets, the passkey challenges and the OIDC sessions are stores of their own;
`StepUpSystem` puts them together, with any number of requests at any point between a factor that
was verified and the ticket that is minted for it. `past` lists the users, their connections and
their credentials as they were before each event.

`Proven` says what a grant rests on, in the tables as they were when they were read, and
`step_up_proves_presence` that every ticket that is spent was minted for a grant of its own, by a
factor that no other ticket was minted for.
-/

namespace Subdux
open GoStrings Rows Results SingleUse Runs

def passkeySessionTTL : Int := 5 * 60 * nsPerSecond
def maxPasskeySessions : Nat := 1024

inductive PasskeySessionKind where
  | registration | login | reauth
  deriving DecidableEq

/-- `data` is the challenge, as the WebAuthn library keeps it. -/
structure PasskeySession where
  kind : PasskeySessionKind
  userID : Nat
  name : String
  operation : String
  data : String
  createdAt : Time
  expiresAt : Time
  deriving DecidableEq

/-- A row of `passkey_credentials`. -/
structure PasskeyRecord where
  userID : Nat
  credential : String
  deriving DecidableEq

abbrev PasskeySessions := Store String PasskeySession

def cleanupPasskeySessions (now : Time) (sessions : PasskeySessions) : PasskeySessions :=
  sessions.filter fun e => !now.after e.2.expiresAt

def storePasskeySession (sessionID : String) (session : PasskeySession) (cleanupNow : Time)
    (sessions : PasskeySessions) :
    PasskeySessions :=
  put sessionID session
    (enforceLimit (fun s => s.createdAt.nanos) maxPasskeySessions
      (cleanupPasskeySessions cleanupNow sessions))

def takePasskeySession (sessionID : String) (expected : PasskeySessionKind) (cleanupNow now : Time)
    (sessions : PasskeySessions) :
    PasskeySessions × Except String PasskeySession :=
  let cleaned := cleanupPasskeySessions cleanupNow sessions
  match lookup sessionID cleaned with
  | none => (cleaned, .error "invalid or expired passkey session")
  | some session =>
    (remove sessionID cleaned,
      if session.kind ≠ expected then .error "invalid passkey session"
      else if now.after session.expiresAt then .error "passkey session expired"
      else .ok session)

def isValidReauthOperation (operation : String) : Bool := operation = "backup" || operation = "restore"

/-! ## The system -/

/-- The tables that the factors are checked against. -/
structure StepUpTables where
  accounts : AccountStore
  records : List PasskeyRecord
  deriving DecidableEq

/-- A password check that passed, with the number of events before it. -/
structure PasswordCheck where
  read : Nat
  operation : String
  password : String

/-- An assertion that was valid, with the number of events before it. -/
structure PasskeyAssertion where
  sessionID : String
  read : Nat
  response : String

/-- What proved the user present: the check of that number, or the session of that id. -/
inductive Factor where
  | password (check : Nat)
  | passkey (sessionID : String)
  | oidc (sessionID : String)
  deriving DecidableEq

structure StepUpGrant where
  userID : Nat
  operation : String
  factor : Factor
  deriving DecidableEq

/-- A request between two of its steps. -/
inductive StepUpRequest where
  /-- About to store its challenge. -/
  | beginning (kind : PasskeySessionKind) (userID : Nat) (name operation : String)
  /-- `FinishPasskeyReauth`, with the challenge it took. -/
  | challenged (userID : Nat) (operation sessionID : String) (session : PasskeySession)
  /-- It has loaded the user. -/
  | asserting (userID : Nat) (operation sessionID : String) (session : PasskeySession)
  /-- About to mint its ticket. -/
  | verified (grant : StepUpGrant)

structure StepUpSystem where
  oidc : OIDCSystem
  passkeys : PasskeySessions
  records : List PasskeyRecord
  past : List StepUpTables
  reauth : ReauthSystem
  requests : Nat → Option StepUpRequest
  challenges : PasskeySessions
  takenChallenges : List String
  passwordChecks : List PasswordCheck
  assertions : List PasskeyAssertion
  granted : List (String × StepUpGrant)

def StepUpSystem.initial (accounts : AccountStore) (records : List PasskeyRecord) (clock : Time) :
    StepUpSystem :=
  ⟨.initial accounts, [], records, [], .initial clock, fun _ => none, [], [], [], [], []⟩

def StepUpSystem.tables (s : StepUpSystem) : StepUpTables := ⟨s.oidc.accounts, s.records⟩

/-- The tables before every event, and now. -/
def StepUpSystem.seen (s : StepUpSystem) : List StepUpTables := s.past ++ [s.tables]

inductive StepUpEvent where
  | oidc (e : OIDCEvent)
  | verifyPassword (i : Nat) (userID : Nat) (operation password : String)
  /-- `BeginPasskeyReauth`, `BeginPasskeyRegistration` and `BeginPasskeyLogin`. -/
  | beginPasskey (i : Nat) (kind : PasskeySessionKind) (userID : Nat) (name operation : String)
  | challenge (i : Nat) (sessionID data : String) (start cleanupNow now : Time)
  /-- The end of a registration or a login takes its challenge. -/
  | takePasskey (sessionID : String) (kind : PasskeySessionKind) (cleanupNow now : Time)
  | finishPasskey (i : Nat) (userID : Nat) (operation sessionID : String) (cleanupNow now : Time)
  | loadUser (i : Nat)
  | assertPasskey (i : Nat) (response : String)
  | verifyOIDC (i : Nat) (userID : Nat) (operation sessionID : String) (cleanupNow now : Time)
  | mint (i : Nat) (bytes : Option TicketBytes) (now cleanupNow : Time)
  /-- `BackupDB` or `RestoreDB` presents a ticket. -/
  | consume (userID : Nat) (operation ticket : String) (cleanupNow now : Time)
  /-- A statement or a library call of a request fails. -/
  | fail (i : Nat)
  /-- What else happens to the credentials. -/
  | others (records : List PasskeyRecord)

/-- The ids are new, and the clock of the tickets goes forward. -/
def StepUpEvent.Fits (s : StepUpSystem) : StepUpEvent → Prop
  | .oidc e => e.Fits s.oidc
  | .challenge _ sessionID .. => sessionID ∉ s.challenges.map (·.1)
  | .mint _ bytes now cleanupNow => (ReauthEvent.mint bytes 0 "" now cleanupNow).Fits s.reauth
  | .consume userID operation ticket cleanupNow now =>
    (ReauthEvent.consume userID operation ticket cleanupNow now).Fits s.reauth
  | _ => True

instance StepUpEvent.decidableFits (s : StepUpSystem) (e : StepUpEvent) : Decidable (e.Fits s) := by
  cases e <;> unfold StepUpEvent.Fits <;> infer_instance

section System
variable (compareHash : String → String → Bool)
  (validateLogin : Nat → List String → String → String → Bool)

/-- A request goes on, or ends. -/
def StepUpSystem.goTo (s : StepUpSystem) (i : Nat) (request : Option StepUpRequest) : StepUpSystem :=
  { s with requests := set s.requests i request }

/-- `VerifyPassword`, up to the minting. -/
def StepUpSystem.verifyPassword (s : StepUpSystem) (i userID : Nat) (operation password : String) :
    StepUpSystem :=
  if !isValidReauthOperation operation ∨ password = "" then s
  else
    match findUser s.oidc.accounts userID with
    | none => s
    | some user =>
      if compareHash user.password password then
        { s.goTo i (some (.verified ⟨userID, operation, .password s.passwordChecks.length⟩)) with
          passwordChecks := s.passwordChecks ++ [⟨s.past.length, operation, password⟩] }
      else s

/-- Up to the challenge. A step-up is begun only for a user with a passkey. -/
def StepUpSystem.beginPasskey (s : StepUpSystem) (i : Nat) (kind : PasskeySessionKind)
    (userID : Nat) (name operation : String) :
    StepUpSystem :=
  match kind with
  | .login => s.goTo i (some (.beginning .login 0 "" ""))
  | .registration =>
    if (findUser s.oidc.accounts userID).isNone then s
    else s.goTo i (some
      (.beginning .registration userID (if trimSpace name = "" then "Passkey" else trimSpace name) ""))
  | .reauth =>
    if !isValidReauthOperation operation ∨ (findUser s.oidc.accounts userID).isNone ∨
      !s.records.any (·.userID = userID) then s
    else s.goTo i (some (.beginning .reauth userID "" operation))

def StepUpSystem.challenge (s : StepUpSystem) (i : Nat) (sessionID : String)
    (session : PasskeySession) (cleanupNow : Time) :
    StepUpSystem :=
  { s.goTo i none with
    passkeys := storePasskeySession sessionID session cleanupNow s.passkeys
    challenges := s.challenges ++ [(sessionID, session)] }

def StepUpSystem.takePasskey (s : StepUpSystem) (sessionID : String) (kind : PasskeySessionKind)
    (cleanupNow now : Time) :
    StepUpSystem :=
  { s with
    passkeys := (takePasskeySession sessionID kind cleanupNow now s.passkeys).1
    takenChallenges := s.takenChallenges ++ foundKey sessionID
      (cleanupPasskeySessions cleanupNow s.passkeys) }

/-- `FinishPasskey`, up to where it has the challenge. -/
def StepUpSystem.finishPasskey (s : StepUpSystem) (i userID : Nat) (operation sessionID : String)
    (cleanupNow now : Time) :
    StepUpSystem :=
  if !isValidReauthOperation operation then s
  else
    let taken := s.takePasskey sessionID .reauth cleanupNow now
    match (takePasskeySession sessionID .reauth cleanupNow now s.passkeys).2 with
    | .error _ => taken
    | .ok session =>
      if session.userID ≠ userID ∨ session.operation ≠ operation then taken
      else taken.goTo i (some (.challenged userID operation sessionID session))

/-- The credentials of the user are read, and the assertion validated against them. -/
def StepUpSystem.assertPasskey (s : StepUpSystem) (i userID : Nat) (operation sessionID : String)
    (session : PasskeySession) (response : String) : StepUpSystem :=
  let records := s.records.filter (·.userID = userID)
  if validateLogin userID (records.map (·.credential)) session.data response then
    { s.goTo i (some (.verified ⟨userID, operation, .passkey sessionID⟩)) with
      assertions := s.assertions ++ [⟨sessionID, s.past.length, response⟩] }
  else s.goTo i none

/-- `VerifyOIDC`, up to the minting. -/
def StepUpSystem.verifyOIDC (s : StepUpSystem) (i userID : Nat) (operation sessionID : String)
    (cleanupNow now : Time) :
    StepUpSystem :=
  if !isValidReauthOperation operation then s
  else
    let consumed := { s with oidc := s.oidc.consume sessionID cleanupNow now }
    match (consumeOIDCReauthResult sessionID userID operation cleanupNow now s.oidc.sessions).2 with
    | .error _ => consumed
    | .ok _ => consumed.goTo i (some (.verified ⟨userID, operation, .oidc (trimSpace sessionID)⟩))

/-- The ticket is minted, where the random source did not fail. -/
def StepUpSystem.mint (s : StepUpSystem) (i : Nat) (grant : StepUpGrant)
    (bytes : Option TicketBytes) (reauth : ReauthSystem) : StepUpSystem :=
  { s.goTo i none with
    reauth := reauth
    granted := s.granted ++ (bytes.map fun bytes => (generateSecureToken bytes, grant)).toList }

/-- An event, but for what `past` keeps of it. -/
def StepUpSystem.act (s : StepUpSystem) : StepUpEvent → Option StepUpSystem
  | .oidc e => (s.oidc.step e).map fun oidc => { s with oidc := oidc }
  | .verifyPassword i userID operation password =>
    if (s.requests i).isSome then none
      else some (s.verifyPassword compareHash i userID operation password)
  | .beginPasskey i kind userID name operation =>
    if (s.requests i).isSome then none else some (s.beginPasskey i kind userID name operation)
  | .challenge i sessionID data start cleanupNow now =>
    match s.requests i with
    | some (.beginning kind userID name operation) =>
      some (s.challenge i sessionID
        ⟨kind, userID, name, operation, data, now, start.add passkeySessionTTL⟩ cleanupNow)
    | _ => none
  | .takePasskey sessionID kind cleanupNow now =>
    if kind = .reauth then none else some (s.takePasskey sessionID kind cleanupNow now)
  | .finishPasskey i userID operation sessionID cleanupNow now =>
    if (s.requests i).isSome then none
      else some (s.finishPasskey i userID operation sessionID cleanupNow now)
  | .loadUser i =>
    match s.requests i with
    | some (.challenged userID operation sessionID session) =>
      if (findUser s.oidc.accounts userID).isNone then some (s.goTo i none)
      else some (s.goTo i (some (.asserting userID operation sessionID session)))
    | _ => none
  | .assertPasskey i response =>
    match s.requests i with
    | some (.asserting userID operation sessionID session) =>
      some (s.assertPasskey validateLogin i userID operation sessionID session response)
    | _ => none
  | .verifyOIDC i userID operation sessionID cleanupNow now =>
    if (s.requests i).isSome then none
      else some (s.verifyOIDC i userID operation sessionID cleanupNow now)
  | .mint i bytes now cleanupNow =>
    match s.requests i with
    | some (.verified grant) =>
      (s.reauth.step (.mint bytes grant.userID grant.operation now cleanupNow)).map
        (s.mint i grant bytes)
    | _ => none
  | .consume userID operation ticket cleanupNow now =>
    (s.reauth.step (.consume userID operation ticket cleanupNow now)).map fun reauth =>
      { s with reauth := reauth }
  | .fail i => some (s.goTo i none)
  | .others records => some { s with records := records }

def StepUpSystem.step (s : StepUpSystem) (e : StepUpEvent) : Option StepUpSystem :=
  (s.act compareHash validateLogin e).map fun t => { t with past := s.past ++ [s.tables] }

/-! ## What a grant rests on -/

/-- The password matched the hash that the user's row had. -/
def StepUpSystem.PasswordMatched (s : StepUpSystem) (userID : Nat) (c : PasswordCheck) : Prop :=
  c.password ≠ "" ∧ ∃ tables, s.seen[c.read]? = some tables ∧ ∃ user ∈ tables.accounts.users,
    user.id = userID ∧
    compareHash user.password c.password

def StepUpSystem.UserSeen (s : StepUpSystem) (userID : Nat) : Prop :=
  ∃ tables ∈ s.seen, ∃ user ∈ tables.accounts.users, user.id = userID

/-- The assertion answers the challenge, with one of the credentials that the user had. -/
def StepUpSystem.PasskeyValid (s : StepUpSystem) (userID : Nat) (challenge : String)
    (a : PasskeyAssertion) : Prop :=
  ∃ tables, s.seen[a.read]? = some tables ∧
    validateLogin userID ((tables.records.filter (·.userID = userID)).map (·.credential)) challenge
      a.response

/-- The user's password matched, the user's passkey answered a challenge made for the operation, or
an identity connected to the user answered an OIDC session begun for it. -/
def StepUpSystem.Proven (s : StepUpSystem) (grant : StepUpGrant) : Prop :=
  match grant.factor with
  | .password check => ∃ c, s.passwordChecks[check]? = some c ∧ c.operation = grant.operation ∧
      s.PasswordMatched compareHash grant.userID c
  | .passkey sessionID => ∃ session, (sessionID, session) ∈ s.challenges ∧ session.kind = .reauth ∧
      session.userID = grant.userID ∧ session.operation = grant.operation ∧ s.UserSeen grant.userID ∧
      ∃ a ∈ s.assertions, a.sessionID = sessionID ∧
        s.PasskeyValid validateLogin grant.userID session.data a
  | .oidc sessionID =>
    ∃ a ∈ s.oidc.answered, a.sessionID = sessionID ∧ (a.state, a.session) ∈ s.oidc.begun ∧
      a.session.purpose = .reauth ∧ a.session.userID = grant.userID ∧
        a.session.operation = grant.operation ∧
      (s.oidc.view a.begun).Identified a.state a.session a.identity ∧
      (s.oidc.view a.begun).Connected a.identity.claims.subject grant.userID ∧
        (s.oidc.view a.begun).Enabled grant.userID

end System

/-! ## What every state keeps -/

/-- The factor that a request holds. -/
def StepUpRequest.factor : StepUpRequest → Option Factor
  | .beginning .. => none
  | .challenged _ _ sessionID _ | .asserting _ _ sessionID _ => some (.passkey sessionID)
  | .verified grant => some grant.factor

/-- The factors that were ever taken. -/
def StepUpSystem.Taken (s : StepUpSystem) : Factor → Prop
  | .password check => check < s.passwordChecks.length
  | .passkey sessionID => sessionID ∈ s.takenChallenges
  | .oidc sessionID => sessionID ∈ s.oidc.delivered.map (·.1)

/-- What a grant rests on stays there. -/
structure Grown (s t : StepUpSystem) : Prop where
  begun : s.oidc.begun ⊆ t.oidc.begun
  answered : s.oidc.answered ⊆ t.oidc.answered
  delivered : s.oidc.delivered ⊆ t.oidc.delivered
  views : ∀ begun, (s.oidc.view begun).Grows (t.oidc.view begun)
  seen : s.seen <+: t.seen
  challenges : s.challenges ⊆ t.challenges
  takenChallenges : s.takenChallenges ⊆ t.takenChallenges
  passwordChecks : s.passwordChecks <+: t.passwordChecks
  assertions : s.assertions ⊆ t.assertions

theorem Grown.refl (s : StepUpSystem) : Grown s s :=
  ⟨List.Subset.refl _, List.Subset.refl _, List.Subset.refl _, fun _ => .refl _, List.prefix_refl _,
    List.Subset.refl _,
    List.Subset.refl _, List.prefix_refl _, List.Subset.refl _⟩

/-- What the callbacks rest on stays there too. -/
theorem OIDCSystem.act_grows {s t : OIDCSystem} {e : OIDCEvent} (h : s.act e = some t) :
    s.begun ⊆ t.begun ∧ s.answered ⊆ t.answered ∧ s.delivered ⊆ t.delivered ∧
    s.identified ⊆ t.identified := by
  have hsame : ∀ {α : Type} (l : List α), l ⊆ l := fun l => List.Subset.refl l
  cases e with
  | begin b state codeVerifier nonce start cleanupNow now =>
    rw [OIDCSystem.act] at h
    split at h
    · cases h
    · obtain rfl := Option.some.inj h
      dsimp only [OIDCSystem.begin]
      exact ⟨List.subset_append_left _ _, hsame _, hsame _, hsame _⟩
  | callback i state cleanupNow now =>
    rw [OIDCSystem.act] at h
    split at h
    · obtain rfl := Option.some.inj h
      unfold OIDCSystem.callback
      dsimp only
      split <;> exact ⟨hsame _, hsame _, hsame _, hsame _⟩
    · cases h
  | identify i answer =>
    rw [OIDCSystem.act] at h
    split at h
    · obtain rfl := Option.some.inj h
      exact ⟨hsame _, hsame _, hsame _, List.subset_append_left _ _⟩
    · cases h
  | next i generated =>
    obtain ⟨callback, -, h⟩ := Option.bind_eq_some_iff.1 h
    obtain ⟨⟨accounts, after⟩, -, h⟩ := Option.bind_eq_some_iff.1 h
    obtain rfl := Option.some.inj h
    exact ⟨hsame _, hsame _, hsame _, hsame _⟩
  | fail i message =>
    obtain ⟨callback, -, h⟩ := Option.bind_eq_some_iff.1 h
    obtain rfl := Option.some.inj h
    exact ⟨hsame _, hsame _, hsame _, hsame _⟩
  | answer i sessionID cleanupNow createdAt now =>
    rw [OIDCSystem.act] at h
    split at h
    · obtain rfl := Option.some.inj h
      exact ⟨hsame _, hsame _, hsame _, hsame _⟩
    · obtain rfl := Option.some.inj h
      exact ⟨hsame _, List.subset_append_left _ _, hsame _, hsame _⟩
    · cases h
  | consume sessionID cleanupNow now =>
    obtain rfl := Option.some.inj h
    exact ⟨hsame _, hsame _, List.subset_append_left _ _, hsame _⟩
  | others accounts =>
    obtain rfl := Option.some.inj h
    exact ⟨hsame _, hsame _, hsame _, hsame _⟩

section Proofs
variable {compareHash : String → String → Bool}
  {validateLogin : Nat → List String → String → String → Bool} {s t : StepUpSystem}
  {grant : StepUpGrant} {i : Nat}

theorem Grown.at (h : Grown s t) {m : Nat} {tables : StepUpTables} (hm : s.seen[m]? = some tables) :
    t.seen[m]? = some tables := by
  obtain ⟨more, hmore⟩ := h.seen
  rw [← hmore, List.getElem?_append_left (List.getElem?_eq_some_iff.1 hm).1, hm]

theorem StepUpSystem.UserSeen.mono {userID : Nat} (h : s.UserSeen userID) (hgrown : Grown s t) :
    t.UserSeen userID := by
  obtain ⟨tables, htables, huser⟩ := h
  exact ⟨tables, hgrown.seen.subset htables, huser⟩

theorem StepUpSystem.Proven.mono (h : s.Proven compareHash validateLogin grant) (hgrown : Grown s t) :
    t.Proven compareHash validateLogin grant := by
  unfold StepUpSystem.Proven at h ⊢
  split at h
  · obtain ⟨c, hc, hoperation, hpassword, tables, htables, huser⟩ := h
    obtain ⟨more, hmore⟩ := hgrown.passwordChecks
    have hlt := (List.getElem?_eq_some_iff.1 hc).1
    refine ⟨c, ?_, hoperation, hpassword, tables, hgrown.at htables, huser⟩
    rw [← hmore, List.getElem?_append_left hlt, hc]
  · obtain ⟨session, hmem, hkind, huser, hoperation, hseen, a, ha, hid, tables, htables, hvalid⟩ := h
    exact ⟨session, hgrown.challenges hmem, hkind, huser, hoperation, hseen.mono hgrown, a,
      hgrown.assertions ha, hid, tables,
      hgrown.at htables, hvalid⟩
  · obtain ⟨a, ha, hid, hbegun, hpurpose, huser, hoperation, hidentified, hconnected, henabled⟩ := h
    have hviews := hgrown.views a.begun
    exact ⟨a, hgrown.answered ha, hid, hgrown.begun hbegun, hpurpose, huser, hoperation,
      hidentified.mono hviews,
      OIDCView.Saw.mono hconnected hviews fun _ hp => hp, OIDCView.Saw.mono henabled hviews
        fun _ hp => hp⟩

theorem StepUpSystem.Taken.mono {factor : Factor} (h : s.Taken factor) (hgrown : Grown s t) :
    t.Taken factor := by
  cases factor with
  | password check => exact lt_of_lt_of_le h hgrown.passwordChecks.length_le
  | passkey sessionID => exact hgrown.takenChallenges h
  | oidc sessionID => exact List.map_subset _ hgrown.delivered h

variable (compareHash validateLogin)

/-- What a request knows by what it has. -/
def StepUpRequest.Sound (s : StepUpSystem) : StepUpRequest → Prop
  | .beginning .. => True
  | .challenged userID operation sessionID session =>
    (sessionID, session) ∈ s.challenges ∧ session.kind = .reauth ∧ session.userID = userID ∧
      session.operation = operation
  | .asserting userID operation sessionID session =>
    (sessionID, session) ∈ s.challenges ∧ session.kind = .reauth ∧ session.userID = userID ∧
      session.operation = operation ∧
      s.UserSeen userID
  | .verified grant => s.Proven compareHash validateLogin grant

/-- Tickets and grants, side by side. -/
def mintedFor (tickets : Tickets) : List (String × Nat × String) :=
  tickets.map fun m => (m.1, m.2.userID, m.2.operation)

def grantedFor (granted : List (String × StepUpGrant)) : List (String × Nat × String) :=
  granted.map fun g => (g.1, g.2.userID, g.2.operation)

structure StepUpInv (s : StepUpSystem) : Prop where
  oidc : OIDCInv s.oidc
  reauth : TicketInv s.reauth
  passkeys : Ledger s.passkeys s.challenges s.takenChallenges
  custody : Custody (fun i => (s.requests i).bind StepUpRequest.factor)
    (s.granted.map (·.2.factor)) s.Taken
  requests : ∀ i r, s.requests i = some r → r.Sound compareHash validateLogin s
  proven : ∀ g ∈ s.granted, s.Proven compareHash validateLogin g.2
  minted : mintedFor s.reauth.minted = grantedFor s.granted

variable {compareHash validateLogin}

theorem StepUpRequest.Sound.mono {r : StepUpRequest} (h : r.Sound compareHash validateLogin s)
    (hgrown : Grown s t) :
    r.Sound compareHash validateLogin t := by
  cases r with
  | beginning kind userID name operation => exact trivial
  | challenged userID operation sessionID session => exact ⟨hgrown.challenges h.1, h.2⟩
  | asserting userID operation sessionID session =>
    obtain ⟨hmem, hkind, huser, hoperation, hseen⟩ := h
    exact ⟨hgrown.challenges hmem, hkind, huser, hoperation, hseen.mono hgrown⟩
  | verified grant => exact StepUpSystem.Proven.mono h hgrown

/-- The events that leave the tables alone. -/
def StepUpEvent.Quiet : StepUpEvent → Prop
  | .oidc _ | .others _ => False
  | _ => True

/-- Nor does an event write `past`. -/
theorem StepUpSystem.act_keeps {e : StepUpEvent} (hquiet : e.Quiet)
    (h : s.act compareHash validateLogin e = some t) :
    t.tables = s.tables ∧ t.past = s.past := by
  cases e with
  -- only the two events that are not quiet touch the tables
  | oidc e => exact hquiet.elim
  | others records => exact hquiet.elim
  | verifyPassword i userID operation password =>
    rw [StepUpSystem.act] at h
    split at h
    · cases h
    · obtain rfl := Option.some.inj h
      unfold StepUpSystem.verifyPassword
      split
      · exact ⟨rfl, rfl⟩
      · split
        · exact ⟨rfl, rfl⟩
        · split <;> exact ⟨rfl, rfl⟩
  | beginPasskey i kind userID name operation =>
    rw [StepUpSystem.act] at h
    split at h
    · cases h
    · obtain rfl := Option.some.inj h
      unfold StepUpSystem.beginPasskey
      split
      · exact ⟨rfl, rfl⟩
      · split <;> exact ⟨rfl, rfl⟩
      · split <;> exact ⟨rfl, rfl⟩
  | finishPasskey i userID operation sessionID cleanupNow now =>
    rw [StepUpSystem.act] at h
    split at h
    · cases h
    · obtain rfl := Option.some.inj h
      unfold StepUpSystem.finishPasskey
      split
      · exact ⟨rfl, rfl⟩
      · dsimp only
        split
        · exact ⟨rfl, rfl⟩
        · split <;> exact ⟨rfl, rfl⟩
  | assertPasskey i response =>
    rw [StepUpSystem.act] at h
    split at h
    · obtain rfl := Option.some.inj h
      unfold StepUpSystem.assertPasskey
      dsimp only
      split <;> exact ⟨rfl, rfl⟩
    · cases h
  | verifyOIDC i userID operation sessionID cleanupNow now =>
    rw [StepUpSystem.act] at h
    split at h
    · cases h
    · obtain rfl := Option.some.inj h
      unfold StepUpSystem.verifyOIDC
      split
      · exact ⟨rfl, rfl⟩
      · dsimp only
        split <;> exact ⟨rfl, rfl⟩
  | challenge i sessionID data start cleanupNow now =>
    rw [StepUpSystem.act] at h
    split at h
    · obtain rfl := Option.some.inj h
      unfold StepUpSystem.challenge StepUpSystem.tables
      exact ⟨rfl, rfl⟩
    · cases h
  | takePasskey sessionID kind cleanupNow now =>
    rw [StepUpSystem.act] at h
    split at h
    · cases h
    · obtain rfl := Option.some.inj h
      exact ⟨rfl, rfl⟩
  | loadUser i =>
    rw [StepUpSystem.act] at h
    split at h
    · split at h
      · obtain rfl := Option.some.inj h
        exact ⟨rfl, rfl⟩
      · obtain rfl := Option.some.inj h
        exact ⟨rfl, rfl⟩
    · cases h
  | mint i bytes now cleanupNow =>
    rw [StepUpSystem.act] at h
    split at h
    · obtain ⟨reauth, -, rfl⟩ := Option.map_eq_some_iff.1 h
      exact ⟨rfl, rfl⟩
    · cases h
  | consume userID operation ticket cleanupNow now =>
    rw [StepUpSystem.act] at h
    obtain ⟨reauth, -, rfl⟩ := Option.map_eq_some_iff.1 h
    exact ⟨rfl, rfl⟩
  | fail i =>
    obtain rfl := Option.some.inj h
    exact ⟨rfl, rfl⟩

namespace StepUpInv

/-- A step that leaves the tickets and the grants, where one request goes on. -/
theorem moved (h : StepUpInv compareHash validateLogin s) (hgrown : Grown s t) (hoidc : OIDCInv t.oidc)
    (hpasskeys : Ledger t.passkeys t.challenges t.takenChallenges) (hreauth : t.reauth = s.reauth)
    (hgranted : t.granted = s.granted) {r : Option StepUpRequest}
    (hrequests : t.requests = set s.requests i r)
    (hsound : ∀ q, r = some q → q.Sound compareHash validateLogin t)
    (hcustody : Custody
      (set (fun j => (s.requests j).bind StepUpRequest.factor) i (r.bind StepUpRequest.factor))
      (s.granted.map (·.2.factor)) t.Taken) : StepUpInv compareHash validateLogin t where
  oidc := hoidc
  reauth := by
    rw [hreauth]
    exact h.reauth
  passkeys := hpasskeys
  custody := by
    rw [hrequests, hgranted, bind_set]
    exact hcustody
  requests := by
    rw [hrequests]
    exact forall_set (fun j q hq => (h.requests j q hq).mono hgrown) hsound
  proven g hg := by
    rw [hgranted] at hg
    exact (h.proven g hg).mono hgrown
  minted := by
    rw [hreauth, hgranted]
    exact h.minted

variable {userID : Nat} {operation sessionID : String} {session : PasskeySession} {cleanupNow now : Time}

/-- A request that holds what it held before, or less. -/
theorem goTo (h : StepUpInv compareHash validateLogin s) {r : Option StepUpRequest}
    (hsound : ∀ q, r = some q → q.Sound compareHash validateLogin s)
    (hheld : ∀ k, r.bind StepUpRequest.factor = some k →
      (s.requests i).bind StepUpRequest.factor = some k) :
    StepUpInv compareHash validateLogin (s.goTo i r) := by
  have hgrown : Grown s (s.goTo i r) := { Grown.refl s with }
  exact h.moved hgrown h.oidc h.passkeys rfl rfl rfl (fun q hq => (hsound q hq).mono hgrown)
    (h.custody.keep hheld)

/-- The tables may change at any time, as `past` keeps them. -/
theorem record (h : StepUpInv compareHash validateLogin s) {oidc : OIDCSystem}
    (hoidc : OIDCInv oidc) {records : List PasskeyRecord}
    (hgrown : Grown s { s with oidc := oidc, records := records, past := s.past ++ [s.tables] }) :
    StepUpInv compareHash validateLogin
    { s with oidc := oidc, records := records, past := s.past ++ [s.tables] } where
  oidc := hoidc
  reauth := h.reauth
  passkeys := h.passkeys
  custody := h.custody.mono fun _ hk => StepUpSystem.Taken.mono hk hgrown
  requests j q hq := (h.requests j q hq).mono hgrown
  proven g hg := (h.proven g hg).mono hgrown
  minted := h.minted

theorem oidc_step (h : StepUpInv compareHash validateLogin s) {e : OIDCEvent} {oidc : OIDCSystem}
    (hfits : e.Fits s.oidc) (hstep : s.oidc.step e = some oidc) :
    StepUpInv compareHash validateLogin { s with oidc := oidc, past := s.past ++ [s.tables] } := by
  have hoidc : OIDCInv oidc := h.oidc.step e hfits hstep
  obtain ⟨u, hact, rfl⟩ := Option.map_eq_some_iff.1 hstep
  obtain ⟨hbegun, hanswered, hdelivered, hidentified⟩ := OIDCSystem.act_grows hact
  refine h.record hoidc
    ⟨hbegun, hanswered, hdelivered, fun begun => ⟨rfl, List.prefix_append _ _, hidentified⟩,
    List.prefix_append _ _, List.Subset.refl _, List.Subset.refl _, List.prefix_refl _,
      List.Subset.refl _⟩

/-- An event that leaves the tables alone. -/
theorem unchanged (h : StepUpInv compareHash validateLogin t) (htables : t.tables = s.tables)
    (hpast : t.past = s.past) :
    StepUpInv compareHash validateLogin { t with past := s.past ++ [s.tables] } := by
  have hgrown : Grown t { t with oidc := t.oidc, records := t.records, past := t.past ++ [t.tables] } :=
    { Grown.refl t with seen := List.prefix_append _ _ }
  have hrecord := h.record h.oidc hgrown
  rw [hpast, htables] at hrecord
  exact hrecord

theorem verifyPassword (h : StepUpInv compareHash validateLogin s) (password : String) :
    StepUpInv compareHash validateLogin (s.verifyPassword compareHash i userID operation password) := by
  unfold StepUpSystem.verifyPassword
  split
  · exact h
  · rename_i hvalid
    split
    · exact h
    · rename_i user hfind
      split
      · rename_i hcompare
        have hgrown : Grown s
            { s.goTo i (some (.verified ⟨userID, operation, .password s.passwordChecks.length⟩)) with
            passwordChecks := s.passwordChecks ++ [⟨s.past.length, operation, password⟩] } :=
          { Grown.refl s with passwordChecks := List.prefix_append _ _ }
        refine h.moved (i := i) hgrown h.oidc h.passkeys rfl rfl rfl ?_ ?_
        · rintro q hq
          obtain rfl := Option.some.inj hq
          obtain ⟨huser, hid⟩ := findUser_ok hfind
          refine ⟨⟨s.past.length, operation, password⟩, List.getElem?_concat_length .., rfl,
            fun hblank => hvalid (.inr hblank),
            s.tables, ?_, user, huser, hid, hcompare⟩
          exact List.getElem?_concat_length ..
        · refine h.custody.acquire (Nat.lt_irrefl _) (fun k hk => StepUpSystem.Taken.mono hk hgrown) ?_
          simp [StepUpSystem.Taken]
      · exact h

theorem cleanup_passkeys (now : Time) (sessions : PasskeySessions) :
    cleanupPasskeySessions now sessions ⊆ sessions :=
  List.filter_sublist.subset

theorem takePasskeySession_map (sessionID : String) (kind : PasskeySessionKind)
    (cleanupNow now : Time) (sessions : PasskeySessions) :
    (takePasskeySession sessionID kind cleanupNow now sessions).1 = remove sessionID
    (cleanupPasskeySessions cleanupNow sessions) := by
  unfold takePasskeySession
  dsimp only
  split
  · rename_i hnone
    rw [remove_of_lookup_none hnone]
  · rfl

theorem takePasskeySession_ok {kind : PasskeySessionKind} {sessions : PasskeySessions}
    (h : (takePasskeySession sessionID kind cleanupNow now sessions).2 = .ok session) :
    lookup sessionID (cleanupPasskeySessions cleanupNow sessions) = some session ∧
    session.kind = kind := by
  unfold takePasskeySession at h
  dsimp only at h
  split at h
  · cases h
  · rename_i found hfind
    dsimp only at h
    split at h
    · cases h
    · rename_i hkind
      split at h
      · cases h
      · obtain rfl := Except.ok.inj h
        exact ⟨hfind, not_not.1 hkind⟩

theorem challenge (h : StepUpInv compareHash validateLogin s)
    (hfresh : sessionID ∉ s.challenges.map (·.1)) :
    StepUpInv compareHash validateLogin (s.challenge i sessionID session cleanupNow) := by
  unfold StepUpSystem.challenge
  have hgrown : Grown s { s.goTo i none with
      passkeys := storePasskeySession sessionID session cleanupNow s.passkeys
      challenges := s.challenges ++ [(sessionID, session)] } := by
    generalize storePasskeySession sessionID session cleanupNow s.passkeys = stored
    exact { Grown.refl s with challenges := List.subset_append_left _ _ }
  have hkept : enforceLimit (fun s => s.createdAt.nanos) maxPasskeySessions
      (cleanupPasskeySessions cleanupNow s.passkeys) ⊆ s.passkeys :=
    List.Subset.trans (enforceLimit_subset _ _) (cleanup_passkeys cleanupNow s.passkeys)
  have hledger := (h.passkeys.lose hkept).issue hfresh session
  refine h.moved (i := i) hgrown h.oidc hledger rfl rfl rfl (fun q hq => by cases hq) ?_
  exact (h.custody.keep fun k hk => by cases hk).mono fun k hk => StepUpSystem.Taken.mono hk hgrown

/-- A step that leaves the requests, the tickets and the grants. -/
theorem quiet (h : StepUpInv compareHash validateLogin s) (hgrown : Grown s t) (hoidc : OIDCInv t.oidc)
    (hpasskeys : Ledger t.passkeys t.challenges t.takenChallenges) (hreauth : t.reauth = s.reauth)
    (hgranted : t.granted = s.granted) (hrequests : t.requests = s.requests) :
    StepUpInv compareHash validateLogin t where
  oidc := hoidc
  reauth := by
    rw [hreauth]
    exact h.reauth
  passkeys := hpasskeys
  custody := by
    rw [hrequests, hgranted]
    exact h.custody.mono fun k hk => StepUpSystem.Taken.mono hk hgrown
  requests j q hq := by
    rw [hrequests] at hq
    exact (h.requests j q hq).mono hgrown
  proven g hg := by
    rw [hgranted] at hg
    exact (h.proven g hg).mono hgrown
  minted := by
    rw [hreauth, hgranted]
    exact h.minted

theorem takePasskey (h : StepUpInv compareHash validateLogin s) (kind : PasskeySessionKind) :
    StepUpInv compareHash validateLogin (s.takePasskey sessionID kind cleanupNow now) := by
  have hgrown : Grown s (s.takePasskey sessionID kind cleanupNow now) :=
    { Grown.refl s with takenChallenges := List.subset_append_left _ _ }
  refine h.quiet hgrown h.oidc ?_ rfl rfl rfl
  unfold StepUpSystem.takePasskey
  rw [takePasskeySession_map]
  exact (h.passkeys.lose (cleanup_passkeys cleanupNow s.passkeys)).takeFound sessionID

theorem finishPasskey (h : StepUpInv compareHash validateLogin s) :
    StepUpInv compareHash validateLogin
    (s.finishPasskey i userID operation sessionID cleanupNow now) := by
  unfold StepUpSystem.finishPasskey
  split
  · exact h
  · have htaken : StepUpInv compareHash validateLogin
        (s.takePasskey sessionID .reauth cleanupNow now) := h.takePasskey .reauth
    dsimp only
    split
    · exact htaken
    · rename_i session htake
      split
      · exact htaken
      · rename_i hsame
        obtain ⟨huser, hoperation⟩ := not_or.1 hsame
        obtain ⟨hfind, hkind⟩ := takePasskeySession_ok htake
        have hstored := cleanup_passkeys cleanupNow s.passkeys (mem_of_lookup hfind)
        have hgrown : Grown s ((s.takePasskey sessionID .reauth cleanupNow now).goTo i
            (some (.challenged userID operation sessionID session))) :=
          { Grown.refl s with takenChallenges := List.subset_append_left _ _ }
        refine h.moved hgrown h.oidc htaken.passkeys rfl rfl rfl ?_ ?_
        · intro q hq
          obtain rfl := Option.some.inj hq
          exact ⟨h.passkeys.stored hstored, hkind, not_not.1 huser, not_not.1 hoperation⟩
        · -- the challenge was not taken before
          have hnew : ¬ s.Taken (.passkey sessionID) := h.passkeys.gone _ hstored
          refine h.custody.acquire hnew (fun k hk => StepUpSystem.Taken.mono hk hgrown)
            (List.mem_append_right _ ?_)
          rw [foundKey, hfind, Option.isSome_some, if_pos rfl]
          exact List.mem_singleton_self _

theorem assertPasskey (h : StepUpInv compareHash validateLogin s)
    (hrequest : s.requests i = some (.asserting userID operation sessionID session))
    (response : String) :
    StepUpInv compareHash validateLogin
    (s.assertPasskey validateLogin i userID operation sessionID session response) := by
  unfold StepUpSystem.assertPasskey
  dsimp only
  split
  · rename_i hvalid
    obtain ⟨hmem, hkind, huser, hoperation, hseen⟩ := h.requests i _ hrequest
    have hgrown : Grown s { s.goTo i (some (.verified ⟨userID, operation, .passkey sessionID⟩)) with
        assertions := s.assertions ++ [⟨sessionID, s.past.length, response⟩] } :=
      { Grown.refl s with assertions := List.subset_append_left _ _ }
    refine h.moved hgrown h.oidc h.passkeys rfl rfl rfl ?_ ?_
    · intro q hq
      obtain rfl := Option.some.inj hq
      refine ⟨session, hmem, hkind, huser, hoperation, hseen.mono hgrown, _, List.mem_append_right _
        (List.mem_singleton_self _),
        rfl, s.tables, ?_, hvalid⟩
      exact List.getElem?_concat_length ..
    · refine (h.custody.keep ?_).mono fun k hk => StepUpSystem.Taken.mono hk hgrown
      intro k hk
      rw [hrequest]
      exact hk
  · exact h.goTo (fun q hq => by cases hq) (fun k hk => by cases hk)

/-- A result that passes the check was stored by a callback that finished, never with an error. -/
theorem reauthResult (h : OIDCInv s.oidc) (hvalid : isValidReauthOperation operation = true)
    (hconsume : (consumeOIDCReauthResult sessionID userID operation cleanupNow now
      s.oidc.sessions).2 = .ok ()) :
    trimSpace sessionID ∉ s.oidc.delivered.map (·.1) ∧
      (∃ result, (s.oidc.consume sessionID cleanupNow now).delivered = s.oidc.delivered ++
        [(trimSpace sessionID, result)]) ∧
      s.Proven compareHash validateLogin ⟨userID, operation, .oidc (trimSpace sessionID)⟩ := by
  unfold consumeOIDCReauthResult at hconsume
  obtain ⟨result, htake, hcheck⟩ := bind_eq_ok hconsume
  obtain ⟨stored, hfind, hresult, -⟩ := takeOIDCResultSession_ok htake
  have hmem := cleanup_results cleanupNow s.oidc.sessions (mem_of_lookup hfind)
  refine ⟨?_, ⟨result, ?_⟩, ?_⟩
  · intro hdelivered
    obtain ⟨d, hd, hkey⟩ := List.mem_map.1 hdelivered
    have htaken := (h.delivered d hd).1
    rw [hkey] at htaken
    exact h.results.gone _ hmem htaken
  · unfold OIDCSystem.consume consumeOIDCSessionResult
    dsimp only
    rw [htake]
  · unfold checkReauthResult at hcheck
    split at hcheck
    · cases hcheck
    · split at hcheck
      · cases hcheck
      · rename_i hsame
        obtain ⟨hpurpose, huser, hoperation⟩ : result.purpose = .reauth ∧ result.userID = userID ∧
            result.operation = operation := by
          simpa [not_or] using hsame
        rcases h.explained _ (h.results.stored hmem) with ⟨purpose, message, herror⟩ |
          ⟨a, ha, hid, haresult⟩
        · -- an error is for no operation
          exfalso
          dsimp only at herror
          rw [hresult] at herror
          rw [herror] at hoperation
          rw [← hoperation] at hvalid
          exact absurd (show isValidReauthOperation "" = true from hvalid) (by decide)
        · obtain ⟨hfinished, hbegun, -⟩ := h.answers a ha
          rw [hresult] at haresult
          have hreauth : a.session.purpose = .reauth := by rw [← hfinished.purpose, haresult, hpurpose]
          have haccount := hfinished.account
          have hsession := hfinished.userID
          have hscope := hfinished.operation
          rw [if_pos hreauth, haresult] at hsession hscope
          rw [OIDCSessionResult.account, hreauth] at haccount
          have hsame : a.connection.userID = userID :=
            (Option.some.inj haccount).symm.trans (hsession.symm.trans huser)
          have hconnected := hfinished.connected
          have henabled := hfinished.enabled
          rw [hsame] at hconnected henabled
          exact ⟨a, ha, hid, hbegun, hreauth, hsession.symm.trans huser,
            hscope.symm.trans hoperation, hfinished.identified,
            hconnected, henabled⟩

theorem verifyOIDC (h : StepUpInv compareHash validateLogin s) :
    StepUpInv compareHash validateLogin (s.verifyOIDC i userID operation sessionID cleanupNow now) := by
  unfold StepUpSystem.verifyOIDC
  split
  · exact h
  · rename_i hvalid
    have hgrown : Grown s { s with oidc := s.oidc.consume sessionID cleanupNow now } :=
      { Grown.refl s with delivered := List.subset_append_left _ _ }
    have hoidc := h.oidc.consume sessionID cleanupNow now
    dsimp only
    split
    · exact h.quiet hgrown hoidc h.passkeys rfl rfl rfl
    · rename_i hconsume
      obtain ⟨hnew, ⟨result, hdelivered⟩, hproven⟩ : _ ∧ _ ∧ s.Proven compareHash validateLogin _ :=
        reauthResult h.oidc (by simpa using hvalid) hconsume
      have hgrown' : Grown s
          (({ s with oidc := s.oidc.consume sessionID cleanupNow now } : StepUpSystem).goTo i
          (some (.verified ⟨userID, operation, .oidc (trimSpace sessionID)⟩))) := { hgrown with }
      refine h.moved hgrown' hoidc h.passkeys rfl rfl rfl ?_ ?_
      · intro q hq
        obtain rfl := Option.some.inj hq
        exact StepUpSystem.Proven.mono hproven hgrown'
      · have hfirst : ¬ s.Taken (.oidc (trimSpace sessionID)) := hnew
        refine h.custody.acquire hfirst (fun k hk => StepUpSystem.Taken.mono hk hgrown') ?_
        rw [StepUpSystem.Taken, StepUpSystem.goTo, hdelivered, List.map_append]
        exact List.mem_append_right _ (List.mem_singleton_self _)

/-- A ticket is minted for the grant that a request holds. -/
theorem mint (h : StepUpInv compareHash validateLogin s)
    (hrequest : s.requests i = some (.verified grant)) {bytes : Option TicketBytes}
    {reauth : ReauthSystem} (hfits : (ReauthEvent.mint bytes 0 "" now cleanupNow).Fits s.reauth)
    (hstep : s.reauth.step (.mint bytes grant.userID grant.operation now cleanupNow) = some reauth) :
    StepUpInv compareHash validateLogin (s.mint i grant bytes reauth) := by
  have hfits' : (ReauthEvent.mint bytes grant.userID grant.operation now cleanupNow).Fits s.reauth := by
    simpa only [ReauthEvent.Fits] using hfits
  have hticket := h.reauth.step _ hfits' hstep
  have hproven : s.Proven compareHash validateLogin grant := h.requests i _ hrequest
  have hgrown : Grown s (s.mint i grant bytes reauth) := { Grown.refl s with }
  have hrequests : ∀ j q, (s.mint i grant bytes reauth).requests j = some q →
      q.Sound compareHash validateLogin (s.mint i grant bytes reauth) :=
    forall_set (fun j q hq => (h.requests j q hq).mono hgrown) fun q hq => by cases hq
  rw [ReauthSystem.step] at hstep
  cases bytes with
  | none =>
    -- the random bytes ran out: no ticket and no grant
    have hgranted : (s.mint i grant none reauth).granted = s.granted := List.append_nil _
    have hminted : reauth.minted = s.reauth.minted := by
      rw [← Option.some.inj hstep, mintTicket, List.append_nil]
    constructor
    case oidc => exact h.oidc
    case reauth => exact hticket
    case passkeys => exact h.passkeys
    case requests => exact hrequests
    case custody =>
      rw [hgranted, StepUpSystem.mint, StepUpSystem.goTo, bind_set]
      exact (h.custody.keep fun k hk => by cases hk).mono fun k hk => StepUpSystem.Taken.mono hk hgrown
    case proven =>
      rw [hgranted]
      exact fun g hg => (h.proven g hg).mono hgrown
    case minted =>
      rw [hgranted, ← h.minted]
      exact congrArg mintedFor hminted
  | some bytes =>
    have hgranted : (s.mint i grant (some bytes) reauth).granted = s.granted ++
        [(generateSecureToken bytes, grant)] := rfl
    have hminted : mintedFor reauth.minted =
        mintedFor s.reauth.minted ++ [(generateSecureToken bytes, grant.userID, grant.operation)] := by
      rw [← Option.some.inj hstep, mintTicket, mintedFor, List.map_append]
      rfl
    constructor
    case oidc => exact h.oidc
    case reauth => exact hticket
    case passkeys => exact h.passkeys
    case requests => exact hrequests
    case custody =>
      rw [hgranted, List.map_append, List.map_singleton, StepUpSystem.mint, StepUpSystem.goTo, bind_set]
      -- the request gives its factor up for good
      refine (h.custody.retire ?_).mono fun k hk => StepUpSystem.Taken.mono hk hgrown
      rw [hrequest]
      rfl
    case proven =>
      rw [hgranted]
      intro g hg
      rcases List.mem_append.1 hg with hg | hg
      · exact (h.proven g hg).mono hgrown
      · rw [List.mem_singleton.1 hg]
        exact hproven.mono hgrown
    case minted =>
      rw [hgranted, grantedFor, List.map_append, ← grantedFor, ← h.minted]
      exact hminted

theorem consume (h : StepUpInv compareHash validateLogin s) {ticket : String} {reauth : ReauthSystem}
    (hfits : (ReauthEvent.consume userID operation ticket cleanupNow now).Fits s.reauth)
    (hstep : s.reauth.step (.consume userID operation ticket cleanupNow now) = some reauth) :
    StepUpInv compareHash validateLogin { s with reauth := reauth } := by
  have hticket := h.reauth.step (.consume userID operation ticket cleanupNow now) hfits hstep
  rw [ReauthSystem.step] at hstep
  obtain rfl := Option.some.inj hstep
  exact { h with reauth := hticket, minted := h.minted }

theorem act (h : StepUpInv compareHash validateLogin s) (e : StepUpEvent) (hquiet : e.Quiet)
    (hfits : e.Fits s) (hact : s.act compareHash validateLogin e = some t) :
    StepUpInv compareHash validateLogin t := by
  cases e with
  | oidc e => exact hquiet.elim
  | verifyPassword i userID operation password =>
    rw [StepUpSystem.act] at hact
    split at hact
    · cases hact
    · obtain rfl := Option.some.inj hact
      exact h.verifyPassword password
  | beginPasskey i kind userID name operation =>
    rw [StepUpSystem.act] at hact
    split at hact
    · cases hact
    · obtain rfl := Option.some.inj hact
      have hbegin : ∀ kind userID name operation,
          StepUpInv compareHash validateLogin
            (s.goTo i (some (.beginning kind userID name operation))) :=
        fun kind userID name operation =>
          h.goTo (fun q hq => Option.some.inj hq ▸ trivial) (fun k hk => by cases hk)
      unfold StepUpSystem.beginPasskey
      split
      · exact hbegin _ _ _ _
      · split
        · exact h
        · exact hbegin _ _ _ _
      · split
        · exact h
        · exact hbegin _ _ _ _
  | challenge i sessionID data start cleanupNow now =>
    rw [StepUpSystem.act] at hact
    split at hact
    · obtain rfl := Option.some.inj hact
      exact h.challenge hfits
    · cases hact
  | takePasskey sessionID kind cleanupNow now =>
    rw [StepUpSystem.act] at hact
    split at hact
    · cases hact
    · obtain rfl := Option.some.inj hact
      exact h.takePasskey kind
  | finishPasskey i userID operation sessionID cleanupNow now =>
    rw [StepUpSystem.act] at hact
    split at hact
    · cases hact
    · obtain rfl := Option.some.inj hact
      exact h.finishPasskey
  | loadUser i =>
    rw [StepUpSystem.act] at hact
    split at hact
    · rename_i userID operation sessionID session hrequest
      split at hact
      · obtain rfl := Option.some.inj hact
        exact h.goTo (fun q hq => by cases hq) (fun k hk => by cases hk)
      · rename_i hsome
        obtain rfl := Option.some.inj hact
        refine h.goTo (fun q hq => ?_) (fun k hk => ?_)
        · obtain rfl := Option.some.inj hq
          -- the user is found in the tables as they are now, which the log keeps
          obtain ⟨hmem, hkind, hsame, hoperation⟩ := h.requests i _ hrequest
          obtain ⟨user, hfind⟩ : ∃ user, findUser s.oidc.accounts userID = some user := by
            simpa [Option.isNone_iff_eq_none, Option.ne_none_iff_exists'] using hsome
          obtain ⟨huser, hid⟩ := findUser_ok hfind
          exact ⟨hmem, hkind, hsame, hoperation, s.tables, List.mem_append_right _
            (List.mem_singleton_self _), user, huser, hid⟩
        · rw [hrequest]
          exact hk
    · cases hact
  | assertPasskey i response =>
    rw [StepUpSystem.act] at hact
    split at hact
    · rename_i hrequest
      obtain rfl := Option.some.inj hact
      exact h.assertPasskey hrequest response
    · cases hact
  | verifyOIDC i userID operation sessionID cleanupNow now =>
    rw [StepUpSystem.act] at hact
    split at hact
    · cases hact
    · obtain rfl := Option.some.inj hact
      exact h.verifyOIDC
  | mint i bytes now cleanupNow =>
    rw [StepUpSystem.act] at hact
    split at hact
    · rename_i grant hrequest
      obtain ⟨reauth, hreauth, rfl⟩ := Option.map_eq_some_iff.1 hact
      exact h.mint hrequest hfits hreauth
    · cases hact
  | consume userID operation ticket cleanupNow now =>
    rw [StepUpSystem.act] at hact
    obtain ⟨reauth, hreauth, rfl⟩ := Option.map_eq_some_iff.1 hact
    exact h.consume hfits hreauth
  | fail i =>
    obtain rfl := Option.some.inj hact
    exact h.goTo (fun q hq => by cases hq) (fun k hk => by cases hk)
  | others records => exact hquiet.elim

theorem step (h : StepUpInv compareHash validateLogin s) (e : StepUpEvent) (hfits : e.Fits s)
    (hstep : s.step compareHash validateLogin e = some t) : StepUpInv compareHash validateLogin t := by
  obtain ⟨u, hact, rfl⟩ := Option.map_eq_some_iff.1 hstep
  have hquiet : e.Quiet → StepUpInv compareHash validateLogin
      { u with past := s.past ++ [s.tables] } := fun hquiet => by
    obtain ⟨htables, hpast⟩ := StepUpSystem.act_keeps hquiet hact
    exact (h.act e hquiet hfits hact).unchanged htables hpast
  cases e with
  | oidc e =>
    obtain ⟨oidc, hoidc, rfl⟩ := Option.map_eq_some_iff.1 hact
    exact h.oidc_step hfits hoidc
  | others records =>
    obtain rfl := Option.some.inj hact
    exact h.record h.oidc { Grown.refl s with seen := List.prefix_append _ _ }
  | _ => exact hquiet trivial

theorem initial (accounts : AccountStore) (records : List PasskeyRecord) (clock : Time) :
    StepUpInv compareHash validateLogin (.initial accounts records clock) where
  oidc := .initial accounts
  reauth := .initial clock
  passkeys := .empty
  custody := .empty
  requests _ r hr := absurd hr.symm (Option.some_ne_none r)
  proven _ hg := absurd hg List.not_mem_nil
  minted := rfl

end StepUpInv

/-- Over every run: a ticket is spent once at most, and was minted for a grant to that user for that
operation; the grant rests on a factor that proved the user present, and no other ticket was minted
for that factor. -/
theorem step_up_proves_presence (compareHash : String → String → Bool)
    (validateLogin : Nat → List String → String → String → Bool) (accounts : AccountStore)
    (records : List PasskeyRecord) (clock : Time) (s : StepUpSystem)
    (h : Path (StepUpSystem.step compareHash validateLogin) (fun s e => e.Fits s)
      (.initial accounts records clock) s) :
      (s.reauth.spent.map (·.ticket)).Nodup ∧ (s.granted.map (·.2.factor)).Nodup ∧
      ∀ x ∈ s.reauth.spent, ∃ grant, (x.ticket, grant) ∈ s.granted ∧ grant.userID = x.userID ∧
        grant.operation = x.operation ∧
        s.Proven compareHash validateLogin grant := by
  have hinv : StepUpInv compareHash validateLogin s :=
    h.invariant (StepUpInv compareHash validateLogin)
      (fun _ e _ hinv hfits hstep => hinv.step e hfits hstep) (.initial accounts records clock)
  refine ⟨hinv.reauth.once, hinv.custody.once, ?_⟩
  intro x hx
  obtain ⟨m, hm, hticket, huser, hoperation, -⟩ := hinv.reauth.matched x hx
  have hside : (m.1, m.2.userID, m.2.operation) ∈ grantedFor s.granted := by
    rw [← hinv.minted]
    exact List.mem_map.2 ⟨m, hm, rfl⟩
  obtain ⟨g, hg, hsame⟩ := List.mem_map.1 hside
  obtain ⟨hkey, hgrantUser, hgrantOperation⟩ : g.1 = m.1 ∧ g.2.userID = m.2.userID ∧
      g.2.operation = m.2.operation := by
    simpa only [Prod.mk.injEq] using hsame
  refine ⟨g.2, ?_, hgrantUser.trans huser, hgrantOperation.trans hoperation, hinv.proven g hg⟩
  rw [← hticket, ← hkey]
  exact hg

end Proofs

/-- The root administrator proves to be present with each of the three factors; an OIDC result and a
passkey challenge are presented again, and so is a ticket. The passkey is deleted before the ticket
for it is minted. -/
def sampleStepUpEvents : List StepUpEvent :=
  let password : TicketBytes := ⟨List.replicate 32 1, by decide⟩
  let passkey : TicketBytes := ⟨List.replicate 32 2, by decide⟩
  let oidc : TicketBytes := ⟨List.replicate 32 3, by decide⟩
  (sampleOIDCEvents.take 12).map .oidc ++
  [.verifyPassword 0 1 "backup" "wrong", .verifyPassword 0 1 "backup" "hash",
   .mint 0 (some password) ⟨11, 0⟩ ⟨12, 0⟩, .beginPasskey 1 .reauth 1 "" "restore",
   .challenge 1 "session-1" "challenge" ⟨13, 0⟩ ⟨14, 0⟩ ⟨15, 0⟩,
   .finishPasskey 2 1 "restore" "session-1" ⟨16, 0⟩ ⟨17, 0⟩,
     .finishPasskey 3 1 "restore" "session-1" ⟨18, 0⟩ ⟨19, 0⟩,
   .loadUser 2, .assertPasskey 2 "challenge", .others [], .mint 2 (some passkey) ⟨20, 0⟩ ⟨21, 0⟩,
   .verifyOIDC 4 1 "backup" "result-1" ⟨22, 0⟩ ⟨23, 0⟩, .verifyOIDC 5 1 "backup" "result-1" ⟨24, 0⟩
     ⟨25, 0⟩,
   .mint 4 (some oidc) ⟨26, 0⟩ ⟨27, 0⟩, .consume 1 "backup" (generateSecureToken password) ⟨28, 0⟩
     ⟨29, 0⟩,
   .consume 1 "backup" (generateSecureToken password) ⟨30, 0⟩ ⟨31, 0⟩,
   .consume 1 "restore" (generateSecureToken passkey) ⟨32, 0⟩ ⟨33, 0⟩,
   .consume 1 "backup" (generateSecureToken oidc) ⟨34, 0⟩ ⟨35, 0⟩]

/-- A hash is the password itself, and an assertion is valid for one of the credentials and the
challenge. -/
theorem step_up_proves_presence_sample :
    ∃ s : StepUpSystem, s.granted.map (·.2.factor) =
    [.password 0, .passkey "session-1", .oidc "result-1"] ∧ s.records = [] ∧
      s.reauth.spent.map (·.operation) = ["backup", "restore", "backup"] ∧
        (s.reauth.spent.map (·.ticket)).Nodup ∧
      ∀ x ∈ s.reauth.spent, ∃ grant, (x.ticket, grant) ∈ s.granted ∧ grant.userID = x.userID ∧
        grant.operation = x.operation ∧
        s.Proven (fun hash password => hash = password)
          (fun _ credentials data response => "credential" ∈ credentials ∧ data = response) grant := by
  have hrun : (exec (StepUpSystem.step (fun hash password => hash = password)
      (fun _ credentials data response => "credential" ∈ credentials ∧ data = response))
      (fun s e => e.Fits s)
        (.initial sampleConnectedAccounts [⟨1, "credential"⟩] ⟨0, 0⟩) sampleStepUpEvents).any
      (fun s => s.granted.map (·.2.factor) = [.password 0, .passkey "session-1", .oidc "result-1"] ∧
        s.records = [] ∧
        s.reauth.spent.map (·.operation) = ["backup", "restore", "backup"]) = true := by
    decide +kernel
  obtain ⟨s, hs, hfacts⟩ := (Option.any_eq_true _ _).1 hrun
  obtain ⟨hgranted, hrecords, hspent⟩ := of_decide_eq_true hfacts
  obtain ⟨honce, -, hproven⟩ :=
    step_up_proves_presence _ _ sampleConnectedAccounts [⟨1, "credential"⟩] ⟨0, 0⟩ s (Path.of_exec hs)
  exact ⟨s, hgranted, hrecords, hspent, honce, hproven⟩

end Subdux
