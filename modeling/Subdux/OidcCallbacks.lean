import Subdux.Lib.Base64
import Subdux.Lib.Runs
import Subdux.OidcSessions
/-!
# OIDC callbacks in any order

Any number of callbacks run at the same time as the requests that begin and consume sessions; each
locked section of the two maps and each statement is one event, and between any two of them
everything else may change the accounts. `past` lists the accounts as they were before each event
and `begunAt` the event at which a callback began; `identified` has the answers that the callbacks
were given. `begun` and `stored` list the sessions that were ever put in the maps, `takenStates` and
`takenResults` the ids under which one was taken, `answered` the callbacks that stored something else
than an error and `delivered` the results that were handed out.

`Finished` says what such a result rests on, in the answers and the accounts as they were while the
callback ran, and `oidc_sessions_answer_once` that a session that was begun has one at most.
-/

namespace Subdux
open GoStrings Rows Results SingleUse Runs

/-- What `generateSecureToken(24)` encodes. -/
abbrev NonceBytes := { bytes : List UInt8 // bytes.length = 24 }

/-- A callback that stored its result, with the number of events before it began. -/
structure OIDCAnswer where
  begun : Nat
  sessionID : String
  state : String
  session : OIDCStateSession
  identity : OIDCIdentity
  connection : OIDCConnection
  result : OIDCSessionResult

structure OIDCSystem where
  accounts : AccountStore
  past : List AccountStore
  sessions : OIDCSessions
  callbacks : Nat → Option Callback
  begunAt : Nat → Nat
  identified : List (String × CallbackAnswer)
  begun : Store String OIDCStateSession
  takenStates : List String
  stored : Store String OIDCResultSession
  takenResults : List String
  answered : List OIDCAnswer
  delivered : List (String × OIDCSessionResult)

def OIDCSystem.initial (accounts : AccountStore) : OIDCSystem :=
  ⟨accounts, [], ⟨[], []⟩, fun _ => none, fun _ => 0, [], [], [], [], [], [], []⟩

inductive OIDCEvent where
  | begin (b : OIDCBegin) (state codeVerifier : String) (nonce : NonceBytes)
    (start cleanupNow now : Time)
  /-- `HandleOIDCCallback` is called. -/
  | callback (i : Nat) (state : String) (cleanupNow now : Time)
  | identify (i : Nat) (answer : CallbackAnswer)
  | next (i : Nat) (generated : Generated)
  /-- A statement or a generator fails. -/
  | fail (i : Nat) (message : String)
  | answer (i : Nat) (sessionID : String) (cleanupNow createdAt now : Time)
  | consume (sessionID : String) (cleanupNow now : Time)
  /-- What else happens to the accounts. -/
  | others (accounts : AccountStore)

/-- The ids that `uuid.NewString` makes are new. -/
def OIDCEvent.Fits (s : OIDCSystem) : OIDCEvent → Prop
  | .begin _ state .. => state ∉ s.begun.map (·.1)
  | .answer _ sessionID .. => sessionID ∉ s.stored.map (·.1)
  | _ => True

instance OIDCEvent.decidableFits (s : OIDCSystem) (e : OIDCEvent) : Decidable (e.Fits s) := by
  cases e <;> unfold OIDCEvent.Fits <;> infer_instance

/-- `createOIDCCallbackErrorResult`. -/
def callbackErrorResult (purpose : OIDCPurpose) (message : String) : OIDCSessionResult :=
  { purpose := purpose, error := message }

def Callback.failedWith : Callback → String → Callback
  | .taken _ session, message | .identified _ session _ _, message | .userLoaded _ session _, message
  | .linked _ session _ _, message | .authenticating _ session _ _ _,
    message | .finished _ session _ _ _, message =>
    .failed session.purpose message
  | .failed purpose _, message => .failed purpose message

def OIDCSystem.begin (s : OIDCSystem) (b : OIDCBegin) (state codeVerifier : String)
    (nonce : NonceBytes) (start cleanupNow now : Time) :
    OIDCSystem :=
  let session := b.session codeVerifier (Base64.encode nonce.1) start
  { s with
    sessions := storeOIDCStateSession state session cleanupNow now s.sessions
    begun := s.begun ++ [(state, stampState session now)] }

def OIDCSystem.callback (s : OIDCSystem) (i : Nat) (state : String) (cleanupNow now : Time) :
    OIDCSystem :=
  let state := trimSpace state
  if state = "" then
    { s with
      begunAt := Function.update s.begunAt i s.past.length
      callbacks := set s.callbacks i (some (.failed .login "missing OIDC state")) }
  else
    let taken := takeOIDCStateSession state cleanupNow now s.sessions
    { s with
      begunAt := Function.update s.begunAt i s.past.length
      sessions := taken.1
      takenStates := s.takenStates ++ foundKey state (s.sessions.cleanup cleanupNow).states
      callbacks := set s.callbacks i (some (match taken.2 with
        | .error message => .failed .login message
        | .ok session => .taken state session)) }

def OIDCSystem.storeResult (s : OIDCSystem) (i : Nat) (sessionID : String) (result : OIDCSessionResult)
    (cleanupNow createdAt now : Time) : OIDCSystem :=
  { s with
    sessions := storeOIDCResultSession sessionID result cleanupNow createdAt now s.sessions
    stored := s.stored ++ [(sessionID, ⟨result, createdAt, now.add oidcResultSessionTTL⟩)]
    callbacks := set s.callbacks i none }

def OIDCSystem.consume (s : OIDCSystem) (sessionID : String) (cleanupNow now : Time) : OIDCSystem :=
  let taken := consumeOIDCSessionResult sessionID cleanupNow now s.sessions
  { s with
    sessions := taken.1
    takenResults :=
      s.takenResults ++ foundKey (trimSpace sessionID) (s.sessions.cleanup cleanupNow).results
    delivered := s.delivered ++ match taken.2 with
      | .error _ => []
      | .ok result => [(trimSpace sessionID, result)] }

/-- An event, but for what `past` keeps of it. -/
def OIDCSystem.act (s : OIDCSystem) : OIDCEvent → Option OIDCSystem
  | .begin b state codeVerifier nonce start cleanupNow now =>
    if b.purpose = .reauth ∧ b.userID = 0 then none
      else some (s.begin b state codeVerifier nonce start cleanupNow now)
  | .callback i state cleanupNow now =>
    match s.callbacks i with
    | none => some (s.callback i state cleanupNow now)
    | some _ => none
  | .identify i answer =>
    match s.callbacks i with
    | some (.taken state session) =>
      some { s with
        identified := s.identified ++ [(state, answer)]
        callbacks := set s.callbacks i (some (match answer.identity session with
          | .error message => .failed session.purpose message
          | .ok identity => .identified state session identity answer.autoCreateUser)) }
    | _ => none
  | .next i generated => do
    let callback ← s.callbacks i
    let (accounts, after) ← callback.next s.accounts generated
    return { s with accounts := accounts, callbacks := set s.callbacks i (some after) }
  | .fail i message => do
    let callback ← s.callbacks i
    return { s with callbacks := set s.callbacks i (some (callback.failedWith message)) }
  | .answer i sessionID cleanupNow createdAt now =>
    match s.callbacks i with
    | some (.failed purpose message) =>
      some (s.storeResult i sessionID (callbackErrorResult purpose message) cleanupNow createdAt now)
    | some (.finished state session identity connection result) =>
      some { s.storeResult i sessionID result cleanupNow createdAt now with
        answered := s.answered ++
          [⟨s.begunAt i, sessionID, state, session, identity, connection, result⟩] }
    | _ => none
  | .consume sessionID cleanupNow now => some (s.consume sessionID cleanupNow now)
  | .others accounts => some { s with accounts := accounts }

def OIDCSystem.step (s : OIDCSystem) (e : OIDCEvent) : Option OIDCSystem :=
  (s.act e).map fun t => { t with past := s.past ++ [s.accounts] }

/-! ## What a result rests on -/

/-- The account that a result speaks for. -/
def OIDCSessionResult.account (result : OIDCSessionResult) (session : OIDCStateSession) : Option Nat :=
  match session.purpose with
  | .login => result.user.map (·.id)
  | .connect | .reauth => some session.userID

/-- What there was to see since event `begun`: the accounts as they were before each event and now,
and the answers that callbacks were given. -/
structure OIDCView where
  begun : Nat
  tables : List AccountStore
  identified : List (String × CallbackAnswer)

def OIDCSystem.view (s : OIDCSystem) (begun : Nat) : OIDCView :=
  ⟨begun, s.past ++ [s.accounts], s.identified⟩

/-- The provider signed in whoever has the identity, for the session: it gave no error, and the
token that its library verified carries the nonce of the session and the subject. -/
structure CallbackAnswer.Vouches (answer : CallbackAnswer) (session : OIDCStateSession)
    (identity : OIDCIdentity) : Prop where
  authorized : answer.providerError = "" ∧ trimSpace answer.code ≠ ""
  available : answer.available = true
  token : ∃ given, answer.idToken = .ok given ∧ given.nonce = session.nonce ∧
    trimSpace given.claims.subject = identity.claims.subject
  subject : identity.claims.subject ≠ ""
  nonce : identity.nonce = session.nonce

namespace OIDCView
variable (v : OIDCView)

/-- The accounts were so at some point. -/
def Saw (p : AccountStore → Prop) : Prop :=
  ∃ m tables, v.begun ≤ m ∧ v.tables[m]? = some tables ∧ p tables

def Identified (state : String) (session : OIDCStateSession) (identity : OIDCIdentity) : Prop :=
  ∃ answer, (state, answer) ∈ v.identified ∧ answer.Vouches session identity

/-- The subject was connected to the user. -/
def Connected (subject : String) (userID : Nat) : Prop :=
  v.Saw fun tables => ∃ c ∈ tables.connections, c.subject = subject ∧ c.userID = userID

/-- The account was there, and not disabled. -/
def Enabled (userID : Nat) : Prop :=
  v.Saw fun tables => ∃ user ∈ tables.users, user.id = userID ∧ user.status ≠ "disabled"

end OIDCView

/-- The identity was made for the session, and its subject was connected to the account, which was
not disabled. -/
structure Finished (v : OIDCView) (state : String) (session : OIDCStateSession) (identity : OIDCIdentity)
    (connection : OIDCConnection) (result : OIDCSessionResult) : Prop where
  identified : v.Identified state session identity
  subject : connection.subject = identity.claims.subject
  connected : v.Connected identity.claims.subject connection.userID
  enabled : v.Enabled connection.userID
  user : ∀ user, result.user = some user → v.Saw (user ∈ ·.users)
  purpose : result.purpose = session.purpose
  account : result.account session = some connection.userID
  tokens : session.purpose ≠ .login → result.token = "" ∧ result.refreshToken = "" ∧ result.user = none
  operation : result.operation = if session.purpose = .reauth then session.operation else ""
  userID : result.userID = if session.purpose = .reauth then session.userID else 0
  error : result.error = ""

/-- The state session that a callback took. -/
def Callback.origin : Callback → Option (String × OIDCStateSession)
  | .taken state session | .identified state session _ _ | .userLoaded state session _ | .linked
    state session _ _
  | .authenticating state session _ _ _ | .finished state session _ _ _ => some (state, session)
  | .failed .. => none

/-- What a callback knows by where it stands. -/
def Callback.Sound (v : OIDCView) : Callback → Prop
  | .taken .. | .failed .. => True
  | .identified state session identity _ => v.Identified state session identity
  | .userLoaded state session identity =>
    v.Identified state session identity ∧ session.purpose ≠ .login ∧ v.Enabled session.userID
  | .linked state session identity connection =>
    v.Identified state session identity ∧ session.purpose = .login ∧
      connection.subject = identity.claims.subject ∧
      v.Connected identity.claims.subject connection.userID
  | .authenticating state session identity connection user =>
    v.Identified state session identity ∧ session.purpose = .login ∧
      connection.subject = identity.claims.subject ∧
      v.Connected identity.claims.subject connection.userID ∧ v.Enabled connection.userID ∧
        v.Saw (user ∈ ·.users) ∧
      user.id = connection.userID
  | .finished state session identity connection result =>
    Finished v state session identity connection result

/-! ### What was seen stays so -/

section Views
variable {v w : OIDCView} {state : String} {session : OIDCStateSession} {identity : OIDCIdentity}
  {connection : OIDCConnection} {result : OIDCSessionResult}

structure OIDCView.Grows (v w : OIDCView) : Prop where
  begun : w.begun = v.begun
  tables : v.tables <+: w.tables
  identified : v.identified ⊆ w.identified

theorem OIDCView.Grows.refl (v : OIDCView) : v.Grows v := ⟨rfl, List.prefix_refl _, List.Subset.refl _⟩

theorem OIDCView.Saw.mono {p q : AccountStore → Prop} (h : v.Saw p) (hgrows : v.Grows w)
    (hpq : ∀ tables, p tables → q tables) :
    w.Saw q := by
  obtain ⟨m, tables, hle, htables, hp⟩ := h
  obtain ⟨more, hmore⟩ := hgrows.tables
  refine ⟨m, tables, hgrows.begun.trans_le hle, ?_, hpq tables hp⟩
  rw [← hmore, List.getElem?_append_left (List.getElem?_eq_some_iff.1 htables).1, htables]

theorem OIDCView.Identified.mono (h : v.Identified state session identity) (hgrows : v.Grows w) :
    w.Identified state session identity := by
  obtain ⟨answer, hmem, hvouches⟩ := h
  exact ⟨answer, hgrows.identified hmem, hvouches⟩

theorem Finished.mono (h : Finished v state session identity connection result) (hgrows : v.Grows w) :
    Finished w state session identity connection result := by
  refine
    { h with
      identified := h.identified.mono hgrows, connected := ?_, enabled := ?_,
      user := fun user huser => ?_ }
  · exact OIDCView.Saw.mono h.connected hgrows fun _ hp => hp
  · exact OIDCView.Saw.mono h.enabled hgrows fun _ hp => hp
  · exact (h.user user huser).mono hgrows fun _ hp => hp

theorem Callback.Sound.mono {callback : Callback} (h : callback.Sound v) (hgrows : v.Grows w) :
    callback.Sound w := by
  have hsaw : ∀ {p : AccountStore → Prop}, v.Saw p → w.Saw p := fun hp => hp.mono hgrows fun _ hq => hq
  cases callback with
  | taken state session => exact trivial
  | failed purpose message => exact trivial
  | identified state session identity autoCreateUser => exact OIDCView.Identified.mono h hgrows
  | userLoaded state session identity =>
    obtain ⟨hidentified, hnot, henabled⟩ := h
    exact ⟨hidentified.mono hgrows, hnot, hsaw henabled⟩
  | linked state session identity connection =>
    obtain ⟨hidentified, hlogin, hsubject, hconnected⟩ := h
    exact ⟨hidentified.mono hgrows, hlogin, hsubject, hsaw hconnected⟩
  | authenticating state session identity connection user =>
    obtain ⟨hidentified, hlogin, hsubject, hconnected, henabled, huser, hid⟩ := h
    exact ⟨hidentified.mono hgrows, hlogin, hsubject, hsaw hconnected, hsaw henabled, hsaw huser, hid⟩
  | finished state session identity connection result => exact Finished.mono h hgrows

end Views

/-! ### One statement -/

section Calls
variable {s s' : AccountStore} {v : OIDCView} {state : String} {session : OIDCStateSession}
  {identity : OIDCIdentity}
  {connection : OIDCConnection} {user : SessionUser} {callback after : Callback} {generated : Generated}

/-- The identity that is resolved is the token's, but for what the userinfo endpoint fills in. -/
theorem resolveOIDCIdentity_ok {idToken : Except String OIDCIdentity} {userInfo : Option OIDCClaims}
    {expectedNonce : String} (hne : expectedNonce ≠ "")
    (h : resolveOIDCIdentity idToken userInfo expectedNonce = .ok identity) :
    (∃ given, idToken = .ok given ∧ given.nonce = expectedNonce ∧
      trimSpace given.claims.subject = identity.claims.subject) ∧
      identity.claims.subject ≠ "" ∧ identity.nonce = expectedNonce := by
  unfold resolveOIDCIdentity at h
  obtain ⟨given, hgiven, h⟩ := bind_eq_ok h
  obtain ⟨_, -, h⟩ := bind_eq_ok h
  obtain ⟨_, hnonce, h⟩ := bind_eq_ok h
  have hsame : given.nonce = expectedNonce := by
    by_contra hdiff
    exact refuseIf_ok hnonce ⟨hne, hdiff⟩
  obtain ⟨_, hblank, h⟩ := bind_eq_ok h
  have hsubject : trimSpace given.claims.subject ≠ "" := refuseIf_ok hblank
  dsimp only at h
  split at h
  · obtain rfl := Except.ok.inj h
    exact ⟨⟨given, hgiven, hsame, rfl⟩, hsubject, hsame⟩
  · obtain ⟨_, -, h⟩ := bind_eq_ok h
    obtain rfl := Except.ok.inj h
    exact ⟨⟨given, hgiven, hsame, rfl⟩, hsubject, hsame⟩

theorem CallbackAnswer.identity_vouches {answer : CallbackAnswer} (hne : session.nonce ≠ "")
    (h : answer.identity session = .ok identity) : answer.Vouches session identity := by
  unfold CallbackAnswer.identity at h
  obtain ⟨_, herror, h⟩ := bind_eq_ok h
  obtain ⟨_, hcode, h⟩ := bind_eq_ok h
  obtain ⟨_, havailable, h⟩ := bind_eq_ok h
  obtain ⟨htoken, hsubject, hnonce⟩ := resolveOIDCIdentity_ok hne h
  exact ⟨⟨not_not.1 (refuseIf_ok herror), refuseIf_ok hcode⟩, by simpa using refuseIf_ok havailable,
    htoken, hsubject, hnonce⟩

theorem findUser_ok {userID : Nat} (h : findUser s userID = some user) :
    user ∈ s.users ∧ user.id = userID :=
  ⟨List.mem_of_find?_eq_some h, by simpa using List.find?_some h⟩

theorem findConnection_ok {subject : String} (h : findConnection s subject = some connection) :
    connection ∈ s.connections ∧ connection.subject = subject :=
  ⟨List.mem_of_find?_eq_some h, by simpa using List.find?_some h⟩

theorem loadEnabledUser_ok {userID : Nat} {missing : String}
    (h : loadEnabledUser s userID missing = .ok user) :
    user ∈ s.users ∧ user.id = userID ∧ user.status ≠ "disabled" := by
  unfold loadEnabledUser at h
  split at h
  · cases h
  · rename_i found hfind
    split at h
    · cases h
    · rename_i henabled
      obtain rfl := Except.ok.inj h
      exact ⟨(findUser_ok hfind).1, (findUser_ok hfind).2, henabled⟩

theorem matchReauthConnection_ok {userID : Nat} {subject : String}
    (h : matchReauthConnection s userID subject = .ok connection) :
    connection ∈ s.connections ∧ connection.subject = subject ∧ connection.userID = userID := by
  unfold matchReauthConnection at h
  split at h
  · cases h
  · rename_i found hfind
    split at h
    · cases h
    · rename_i hsame
      obtain rfl := Except.ok.inj h
      exact ⟨(findConnection_ok hfind).1, (findConnection_ok hfind).2, not_not.1 hsame⟩

/-- The connection was there, or is there now. -/
theorem connectOIDC_ok {userID : Nat} {claims : OIDCClaims}
    (h : connectOIDC s userID claims = .ok (s', connection)) :
    connection.subject = claims.subject ∧ connection.userID = userID ∧
      ∃ tables, (tables = s ∨ tables = s') ∧ ∃ c ∈ tables.connections, c.subject = claims.subject ∧
        c.userID = userID := by
  unfold connectOIDC at h
  dsimp only at h
  split at h
  · rename_i found hfind
    obtain ⟨hmem, hsubject⟩ := findConnection_ok hfind
    split at h
    · cases h
    · rename_i hsame
      obtain ⟨-, rfl⟩ := Prod.ext_iff.1 (Except.ok.inj h)
      dsimp only
      have hfound : ∃ c ∈ s.connections, c.subject = claims.subject ∧ c.userID = userID :=
        ⟨found, hmem, hsubject, not_not.1 hsame⟩
      split
      · exact ⟨hsubject, not_not.1 hsame, s, .inl rfl, hfound⟩
      · exact ⟨hsubject, not_not.1 hsame, s, .inl rfl, hfound⟩
  · split at h
    · cases h
    · obtain ⟨rfl, rfl⟩ := Prod.ext_iff.1 (Except.ok.inj h)
      exact ⟨rfl, rfl, _, .inr rfl, _, List.mem_append_right _ (List.mem_singleton_self _), rfl, rfl⟩

theorem createOIDCUser_ok {claims : OIDCClaims} {hash : String}
    (h : createOIDCUser claims hash s = .ok s') :
    ⟨s.nextUserID, claims.subject, trimSpace claims.email⟩ ∈ s'.connections ∧
      ∃ user ∈ s'.users, user.id = s.nextUserID ∧ user.status ≠ "disabled" := by
  unfold createOIDCUser at h
  obtain ⟨_, -, h⟩ := bind_eq_ok h
  obtain ⟨_, -, h⟩ := bind_eq_ok h
  obtain ⟨username, -, h⟩ := bind_eq_ok h
  obtain ⟨created, hinsert, h⟩ := bind_eq_ok h
  obtain ⟨_, -, h⟩ := bind_eq_ok h
  obtain rfl := Except.ok.inj h
  obtain ⟨rfl, -⟩ := insertUser_ok hinsert
  exact ⟨List.mem_append_right _ (List.mem_singleton_self _), _, List.mem_append_right _
    (List.mem_singleton_self _), rfl, by simp⟩

/-- Where the account could be created, the callback goes on with it. -/
theorem createLoginUser_sound (hidentified : v.Identified state session identity)
    (hlogin : session.purpose = .login)
    (h : createLoginUser s state session identity generated.hash = (s', after))
    (hseen : ∀ p : AccountStore → Prop, p s' → v.Saw p) :
    after.Sound v ∧ ∀ o, after.origin = some o → o = (state, session) := by
  unfold createLoginUser at h
  split at h
  · obtain ⟨-, rfl⟩ := Prod.ext_iff.1 h
    exact ⟨trivial, fun o ho => by cases ho⟩
  · rename_i created hcreate
    obtain ⟨rfl, hafter⟩ := Prod.ext_iff.1 h
    dsimp only at hafter hseen
    obtain ⟨hconnection, henabled⟩ := createOIDCUser_ok hcreate
    cases hfind : findUser created s.nextUserID with
    | none =>
      rw [hfind, Option.elim_none] at hafter
      rw [← hafter]
      exact ⟨trivial, fun o ho => by cases ho⟩
    | some user =>
      rw [hfind, Option.elim_some] at hafter
      rw [← hafter]
      obtain ⟨huser, hid⟩ := findUser_ok hfind
      refine ⟨⟨hidentified, hlogin, rfl, ?_, hseen _ henabled, hseen _ huser, hid⟩, fun o ho =>
        (Option.some.inj ho).symm⟩
      exact hseen _ ⟨_, hconnection, rfl, rfl⟩

/-- One statement of a callback that sees the accounts before and after it. -/
theorem Callback.next_sound (hsound : callback.Sound v)
    (h : callback.next s generated = some (s', after))
    (hbefore : ∀ p : AccountStore → Prop, p s → v.Saw p)
    (hafter : ∀ p : AccountStore → Prop, p s' → v.Saw p) :
    after.Sound v ∧ ∀ o, after.origin = some o → callback.origin = some o := by
  have hfailed : ∀ {purpose message} {o : String × OIDCStateSession},
      (Callback.failed purpose message).origin = some o → callback.origin = some o :=
        fun ho => by cases ho
  cases callback with
  | taken state session => cases h
  | finished state session identity connection result => cases h
  | failed purpose message => cases h
  | identified state session identity autoCreateUser =>
    -- the identity came with its state session; what is left is the account
    have hidentified : v.Identified state session identity := hsound
    rw [Callback.next] at h
    cases hpurpose : session.purpose with
    | login =>
      simp only [hpurpose] at h
      split at h
      · rename_i found hfind
        obtain ⟨-, rfl⟩ := Prod.ext_iff.1 (Option.some.inj h)
        obtain ⟨hmem, hsubject⟩ := findConnection_ok hfind
        exact ⟨⟨hidentified, hpurpose, hsubject, hbefore _ ⟨found, hmem, hsubject, rfl⟩⟩, fun o ho => ho⟩
      · split at h
        · obtain ⟨hok, horigin⟩ := createLoginUser_sound hidentified hpurpose (Option.some.inj h) hafter
          exact ⟨hok, fun o ho => congrArg some (horigin o ho).symm⟩
        · obtain ⟨-, rfl⟩ := Prod.ext_iff.1 (Option.some.inj h)
          exact ⟨trivial, fun o ho => hfailed ho⟩
    | connect | reauth =>
      simp only [hpurpose] at h
      split at h
      · obtain ⟨-, rfl⟩ := Prod.ext_iff.1 (Option.some.inj h)
        exact ⟨trivial, fun o ho => hfailed ho⟩
      · split at h
        · obtain ⟨-, rfl⟩ := Prod.ext_iff.1 (Option.some.inj h)
          exact ⟨trivial, fun o ho => hfailed ho⟩
        · rename_i user hload
          obtain ⟨-, rfl⟩ := Prod.ext_iff.1 (Option.some.inj h)
          obtain ⟨huser, hid, henabled⟩ := loadEnabledUser_ok hload
          refine ⟨⟨hidentified, ?_, hbefore _ ⟨user, huser, hid, henabled⟩⟩, fun o ho => ho⟩
          rw [hpurpose]
          decide
  | userLoaded state session identity =>
    obtain ⟨hidentified, hnot, henabled⟩ := hsound
    rw [Callback.next] at h
    cases hpurpose : session.purpose with
    | login => exact absurd hpurpose hnot
    | connect =>
      simp only [hpurpose] at h
      split at h
      · obtain ⟨-, rfl⟩ := Prod.ext_iff.1 (Option.some.inj h)
        exact ⟨trivial, fun o ho => hfailed ho⟩
      · rename_i connected connection hconnect
        obtain ⟨rfl, rfl⟩ := Prod.ext_iff.1 (Option.some.inj h)
        obtain ⟨hsubject, huser, tables, htables, hconnected⟩ := connectOIDC_ok hconnect
        -- the connection was there already, or this step has stored it
        have hseen : v.Connected identity.claims.subject session.userID := by
          rcases htables with rfl | rfl
          · exact hbefore _ hconnected
          · exact hafter _ hconnected
        rw [← huser] at henabled hseen
        refine ⟨⟨hidentified, hsubject, hseen, henabled, fun _ hnone => (by cases hnone),
          hpurpose.symm, ?_,
          fun _ => ⟨rfl, rfl, rfl⟩, ?_, ?_, rfl⟩, fun o ho => ho⟩
        · simp only [OIDCSessionResult.account, hpurpose, huser]
        · simp [hpurpose]
        · simp [hpurpose]
    | reauth =>
      simp only [hpurpose] at h
      split at h
      · obtain ⟨-, rfl⟩ := Prod.ext_iff.1 (Option.some.inj h)
        exact ⟨trivial, fun o ho => hfailed ho⟩
      · rename_i connection hmatch
        obtain ⟨-, rfl⟩ := Prod.ext_iff.1 (Option.some.inj h)
        -- a step-up asks for the connection of the very account that began it
        obtain ⟨hmem, hsubject, huser⟩ := matchReauthConnection_ok hmatch
        rw [← huser] at henabled
        refine ⟨⟨hidentified, hsubject, hbefore _ ⟨connection, hmem, hsubject, rfl⟩, henabled,
          fun _ hnone => (by cases hnone),
          hpurpose.symm, ?_, fun _ => ⟨rfl, rfl, rfl⟩, ?_, ?_, rfl⟩, fun o ho => ho⟩
        · simp only [OIDCSessionResult.account, hpurpose, huser]
        · simp [hpurpose]
        · simp [hpurpose]
  | linked state session identity connection =>
    obtain ⟨hidentified, hlogin, hsubject, hconnected⟩ := hsound
    rw [Callback.next] at h
    split at h
    · obtain ⟨-, rfl⟩ := Prod.ext_iff.1 (Option.some.inj h)
      exact ⟨trivial, fun o ho => hfailed ho⟩
    · rename_i user hload
      obtain ⟨-, rfl⟩ := Prod.ext_iff.1 (Option.some.inj h)
      obtain ⟨huser, hid, henabled⟩ := loadEnabledUser_ok hload
      exact ⟨⟨hidentified, hlogin, hsubject, hconnected, hbefore _ ⟨user, huser, hid, henabled⟩,
        hbefore _ huser, hid⟩, fun o ho => ho⟩
  | authenticating state session identity connection user =>
    obtain ⟨hidentified, hlogin, hsubject, hconnected, henabled, huser, hid⟩ := hsound
    obtain ⟨-, rfl⟩ := Prod.ext_iff.1 (Option.some.inj h)
    refine ⟨⟨hidentified, hsubject, hconnected, henabled, ?_, hlogin.symm, ?_, fun hnot =>
      absurd hlogin hnot, ?_, ?_, rfl⟩,
      fun o ho => ho⟩
    · intro other hother
      obtain rfl := Option.some.inj hother
      exact huser
    · simp only [OIDCSessionResult.account, hlogin, Option.map_some, hid]
    · simp [hlogin]
    · simp [hlogin]

theorem Callback.failedWith_sound (callback : Callback) (message : String) :
    (callback.failedWith message).Sound v ∧ (callback.failedWith message).origin = none := by
  cases callback <;> exact ⟨trivial, rfl⟩

end Calls

/-! ## The calls that run -/

def Callback.state (callback : Callback) : Option String := callback.origin.map (·.1)

section Running
variable {view view' : Nat → OIDCView} {callbacks : Nat → Option Callback}
  {begun begun' : Store String OIDCStateSession}
  {taken taken' : List String} {answered : List OIDCAnswer} {i : Nat} {c after : Callback}

/-- The calls that run hold the state sessions they took, and know what `view` shows them. -/
structure Running (view : Nat → OIDCView) (callbacks : Nat → Option Callback)
    (begun : Store String OIDCStateSession) (taken : List String) (answered : List OIDCAnswer) :
    Prop where
  sound : ∀ i c, callbacks i = some c → c.Sound (view i)
  origin : ∀ i c, callbacks i = some c → ∀ o, c.origin = some o → o ∈ begun
  custody : Custody (fun i => (callbacks i).bind Callback.state) (answered.map (·.state)) (· ∈ taken)

theorem Running.mono (h : Running view callbacks begun taken answered) (hbegun : begun ⊆ begun')
    (htaken : taken ⊆ taken') :
    Running view callbacks begun' taken' answered where
  sound := h.sound
  origin j d hd o ho := hbegun (h.origin j d hd o ho)
  custody := h.custody.mono fun _ hk => htaken hk

/-- The calls see more. -/
theorem Running.see (h : Running view callbacks begun taken answered)
    (hgrows : ∀ j d, callbacks j = some d → (view j).Grows (view' j)) : Running view' callbacks
    begun taken answered where
  sound j d hd := (h.sound j d hd).mono (hgrows j d hd)
  origin := h.origin
  custody := h.custody

/-- A call that keeps its state session, or gives it up. -/
theorem Running.move (h : Running view callbacks begun taken answered) (hc : callbacks i = some c)
    (hsound : after.Sound (view i)) (horigin : ∀ o, after.origin = some o → c.origin = some o) :
    Running view (set callbacks i (some after)) begun taken answered where
  sound := forall_set h.sound fun d hd => Option.some.inj hd ▸ hsound
  origin := forall_set h.origin fun d hd o ho => h.origin i c hc o (horigin o (Option.some.inj hd ▸ ho))
  custody := by
    rw [bind_set]
    refine h.custody.keep fun k hk => ?_
    obtain ⟨o, ho, rfl⟩ := Option.map_eq_some_iff.1 hk
    rw [hc, Option.bind_some, Callback.state, horigin o ho, Option.map_some]

/-- A call that has no state session. -/
theorem Running.reject (h : Running view callbacks begun taken answered) (purpose : OIDCPurpose)
    (message : String) :
    Running view (set callbacks i (some (.failed purpose message))) begun taken answered where
  sound := forall_set h.sound fun d hd => Option.some.inj hd ▸ trivial
  origin := forall_set h.origin fun d hd o ho => by
    obtain rfl := Option.some.inj hd
    cases ho
  custody := by
    rw [bind_set]
    exact h.custody.keep fun k hk => by cases hk

/-- A call that takes a state session that nobody had taken. -/
theorem Running.enter (h : Running view callbacks begun taken answered) {state : String}
    {session : OIDCStateSession} (hmem : (state, session) ∈ begun) (hin : state ∈ taken')
    (hsub : taken ⊆ taken') (hnew : state ∉ taken) :
    Running view (set callbacks i (some (.taken state session))) begun taken' answered where
  sound := forall_set h.sound fun d hd => Option.some.inj hd ▸ trivial
  origin := forall_set h.origin fun d hd o ho => by
    obtain rfl := Option.some.inj hd
    obtain rfl := Option.some.inj ho
    exact hmem
  custody := by
    rw [bind_set]
    exact h.custody.acquire hnew (fun _ hk => hsub hk) hin

theorem Running.stop (h : Running view callbacks begun taken answered) :
    Running view (set callbacks i none) begun taken answered where
  sound := forall_set h.sound fun d hd => by cases hd
  origin := forall_set h.origin fun d hd => by cases hd
  custody := by
    rw [bind_set]
    exact h.custody.keep fun k hk => by cases hk

/-- A call that answers, and holds its state session no longer. -/
theorem Running.answer (h : Running view callbacks begun taken answered) (hc : callbacks i = some c)
    {a : OIDCAnswer} (ha : c.state = some a.state) :
    Running view (set callbacks i none) begun taken (answered ++ [a]) where
  sound := h.stop.sound
  origin := h.stop.origin
  custody := by
    rw [bind_set, List.map_append, List.map_singleton]
    exact h.custody.retire (by rw [hc, Option.bind_some, ha])

end Running

/-! ## What every state keeps -/

section Sessions
variable {sessions : OIDCSessions} {key : String} {cleanupNow now : Time}

theorem cleanup_states (now : Time) (sessions : OIDCSessions) :
    (sessions.cleanup now).states ⊆ sessions.states :=
  List.filter_sublist.subset

theorem cleanup_results (now : Time) (sessions : OIDCSessions) :
    (sessions.cleanup now).results ⊆ sessions.results :=
  List.filter_sublist.subset

theorem takeOIDCStateSession_maps : (takeOIDCStateSession key cleanupNow now sessions).1 =
    { sessions.cleanup cleanupNow with states := remove key (sessions.cleanup cleanupNow).states } := by
  unfold takeOIDCStateSession
  dsimp only
  split
  · rename_i hnone
    rw [remove_of_lookup_none hnone]
  · rfl

theorem takeOIDCStateSession_ok {session : OIDCStateSession}
    (h : (takeOIDCStateSession key cleanupNow now sessions).2 = .ok session) :
    lookup key (sessions.cleanup cleanupNow).states = some session ∧ ¬ now.after session.expiresAt := by
  unfold takeOIDCStateSession at h
  dsimp only at h
  split at h
  · cases h
  · rename_i found hfind
    dsimp only at h
    split at h
    · cases h
    · rename_i hfresh
      obtain rfl := Except.ok.inj h
      exact ⟨hfind, hfresh⟩

theorem takeOIDCResultSession_maps : (takeOIDCResultSession key cleanupNow now sessions).1 =
    { sessions.cleanup cleanupNow with
      results := remove key (sessions.cleanup cleanupNow).results } := by
  unfold takeOIDCResultSession
  dsimp only
  split
  · rename_i hnone
    rw [remove_of_lookup_none hnone]
  · rfl

theorem takeOIDCResultSession_ok {result : OIDCSessionResult}
    (h : (takeOIDCResultSession key cleanupNow now sessions).2 = .ok result) :
    ∃ session, lookup key (sessions.cleanup cleanupNow).results = some session ∧
    session.result = result ∧
      ¬ now.after session.expiresAt := by
  unfold takeOIDCResultSession at h
  dsimp only at h
  split at h
  · cases h
  · rename_i found hfind
    dsimp only at h
    split at h
    · cases h
    · rename_i hfresh
      exact ⟨found, hfind, Except.ok.inj h, hfresh⟩

end Sessions

structure OIDCInv (s : OIDCSystem) : Prop where
  states : Ledger s.sessions.states s.begun s.takenStates
  results : Ledger s.sessions.results s.stored s.takenResults
  bounded : s.sessions.states.length ≤ maxOIDCStateSessions ∧
    s.sessions.results.length ≤ maxOIDCResultSession
  nonces : ∀ e ∈ s.begun, e.2.nonce ≠ ""
  began : ∀ i, s.begunAt i ≤ s.past.length
  running : Running (fun i => s.view (s.begunAt i)) s.callbacks s.begun s.takenStates s.answered
  answers : ∀ a ∈ s.answered,
    Finished (s.view a.begun) a.state a.session a.identity a.connection a.result ∧
    (a.state, a.session) ∈ s.begun ∧ ∃ e ∈ s.stored, e.1 = a.sessionID ∧ e.2.result = a.result
  ids : (s.answered.map (·.sessionID)).Nodup
  explained : ∀ e ∈ s.stored, (∃ purpose message, e.2.result = callbackErrorResult purpose message) ∨
    ∃ a ∈ s.answered, a.sessionID = e.1 ∧ a.result = e.2.result
  delivered : ∀ d ∈ s.delivered, d.1 ∈ s.takenResults ∧ ∃ e ∈ s.stored, e.1 = d.1 ∧ e.2.result = d.2
  deliveredOnce : (s.delivered.map (·.1)).Nodup

namespace OIDCInv
variable {s t : OIDCSystem} {i : Nat}

theorem initial (accounts : AccountStore) : OIDCInv (.initial accounts) := by
  constructor
  case states => exact .empty
  case results => exact .empty
  case bounded => simp [OIDCSystem.initial]
  case began => exact fun _ => Nat.le_refl 0
  case running =>
    have hnone : ∀ i c, (OIDCSystem.initial accounts).callbacks i ≠ some c :=
      fun i c h => Option.some_ne_none c h.symm
    exact ⟨fun i c h => absurd h (hnone i c), fun i c h => absurd h (hnone i c), .empty⟩
  case ids => exact List.nodup_nil
  case deliveredOnce => exact List.nodup_nil
  all_goals exact fun _ h => absurd h List.not_mem_nil

theorem cleaned (h : OIDCInv s) (now : Time) :
    (s.sessions.cleanup now).states.length ≤ maxOIDCStateSessions ∧
    (s.sessions.cleanup now).results.length ≤ maxOIDCResultSession :=
  ⟨(List.length_filter_le _ _).trans h.bounded.1, (List.length_filter_le _ _).trans h.bounded.2⟩

/-- The nonce of a session that is stored. -/
theorem stampState_nonce (b : OIDCBegin) (codeVerifier : String) (nonce : NonceBytes)
    (start now : Time) :
    (stampState (b.session codeVerifier (Base64.encode nonce.1) start) now).nonce ≠ "" := by
  have hnonce : (stampState (b.session codeVerifier (Base64.encode nonce.1) start) now).nonce =
      Base64.encode nonce.1 := by
    unfold stampState
    split <;> rfl
  rw [hnonce]
  refine Base64.encode_ne_empty fun hnil => ?_
  have hlen := nonce.2
  rw [hnil] at hlen
  cases hlen

theorem begin (h : OIDCInv s) (b : OIDCBegin) {state : String} (codeVerifier : String)
    (nonce : NonceBytes) (start cleanupNow now : Time) (hfresh : state ∉ s.begun.map (·.1)) :
    OIDCInv (s.begin b state codeVerifier nonce start cleanupNow now) := by
  have hnonce := stampState_nonce b codeVerifier nonce start now
  -- what the callbacks see is not touched
  have hrunning := h.running
  have hanswers := h.answers
  unfold OIDCSystem.view at hrunning hanswers
  unfold OIDCSystem.begin storeOIDCStateSession
  dsimp only
  generalize stampState (b.session codeVerifier (Base64.encode nonce.1) start) now = session at hnonce ⊢
  constructor
  case states =>
    exact (h.states.lose
      (List.Subset.trans (enforceLimit_subset _ _) (cleanup_states cleanupNow s.sessions))).issue
      hfresh _
  case results => exact h.results.lose (cleanup_results cleanupNow s.sessions)
  case bounded => exact ⟨put_enforceLimit_length (by decide) _ _ _, (h.cleaned cleanupNow).2⟩
  case nonces =>
    intro e he
    rcases List.mem_append.1 he with he | he
    · exact h.nonces e he
    · rw [List.mem_singleton.1 he]
      exact hnonce
  case began => exact h.began
  case running => exact hrunning.mono (List.subset_append_left _ _) (List.Subset.refl _)
  case answers =>
    intro a ha
    obtain ⟨hfinished, hbegun, hrest⟩ := hanswers a ha
    exact ⟨hfinished, List.mem_append_left _ hbegun, hrest⟩
  case ids => exact h.ids
  case explained => exact h.explained
  case delivered => exact h.delivered
  case deliveredOnce => exact h.deliveredOnce

/-- What the call that begins sees is nothing that a call before it saw. -/
theorem begins (h : OIDCInv s) (i : Nat) :
    ∀ j, Function.update s.begunAt i s.past.length j ≤ s.past.length := by
  intro j
  by_cases hj : j = i
  · rw [hj, Function.update_self]
  · rw [Function.update_of_ne hj]
    exact h.began j

theorem callback_keeps (s : OIDCSystem) (i : Nat) (state : String) (cleanupNow now : Time) :
    (s.callback i state cleanupNow now).accounts = s.accounts ∧
    (s.callback i state cleanupNow now).past = s.past := by
  unfold OIDCSystem.callback
  dsimp only
  split <;> exact ⟨rfl, rfl⟩

theorem callback (h : OIDCInv s) (hidle : s.callbacks i = none) (state : String)
    (cleanupNow now : Time) :
    OIDCInv (s.callback i state cleanupNow now) := by
  have hrunning : Running
      (fun j => s.view (Function.update s.begunAt i s.past.length j)) s.callbacks s.begun s.takenStates
      s.answered := by
    refine h.running.see fun j d hd => ?_
    have hj : j ≠ i := by
      rintro rfl
      rw [hidle] at hd
      cases hd
    rw [Function.update_of_ne hj]
    exact .refl _
  unfold OIDCSystem.callback
  dsimp only
  split
  · exact { h with began := h.begins i, running := hrunning.reject _ _ }
  · rename_i hblank
    have hledger := (h.states.lose (cleanup_states cleanupNow s.sessions)).takeFound (trimSpace state)
    have hsub : s.takenStates ⊆ s.takenStates ++ foundKey (trimSpace state)
        (s.sessions.cleanup cleanupNow).states :=
      List.subset_append_left _ _
    have hbounded := h.cleaned cleanupNow
    rw [takeOIDCStateSession_maps]
    constructor
    case states => exact hledger
    case results => exact h.results.lose (cleanup_results cleanupNow s.sessions)
    case bounded => exact ⟨(List.length_filter_le _ _).trans hbounded.1, hbounded.2⟩
    case nonces => exact h.nonces
    case began => exact h.begins i
    case running =>
      cases htake : (takeOIDCStateSession (trimSpace state) cleanupNow now s.sessions).2 with
      | error message => exact (hrunning.mono (List.Subset.refl _) hsub).reject _ _
      | ok session =>
        have hfind := (takeOIDCStateSession_ok htake).1
        have hmem := mem_of_lookup hfind
        have hkey : foundKey (trimSpace state) (s.sessions.cleanup cleanupNow).states =
            [trimSpace state] := by
          rw [foundKey, hfind, Option.isSome_some, if_pos rfl]
        refine hrunning.enter (h.states.stored (cleanup_states _ _ hmem)) ?_ hsub
          (h.states.gone _ (cleanup_states _ _ hmem))
        rw [hkey]
        exact List.mem_append_right _ (List.mem_singleton_self _)
    case answers => exact h.answers
    case ids => exact h.ids
    case explained => exact h.explained
    case delivered => exact h.delivered
    case deliveredOnce => exact h.deliveredOnce

theorem consume (h : OIDCInv s) (sessionID : String) (cleanupNow now : Time) :
    OIDCInv (s.consume sessionID cleanupNow now) := by
  unfold OIDCSystem.consume consumeOIDCSessionResult
  have hledger :=
    (h.results.lose (cleanup_results cleanupNow s.sessions)).takeFound (trimSpace sessionID)
  have hbounded := h.cleaned cleanupNow
  have hsub : s.takenResults ⊆ s.takenResults ++ foundKey (trimSpace sessionID)
      (s.sessions.cleanup cleanupNow).results :=
    List.subset_append_left _ _
  have hdelivered : ∀ d ∈ s.delivered, d.1 ∈ s.takenResults ++ foundKey (trimSpace sessionID)
      (s.sessions.cleanup cleanupNow).results ∧
      ∃ e ∈ s.stored, e.1 = d.1 ∧ e.2.result = d.2 :=
        fun d hd => ⟨hsub (h.delivered d hd).1, (h.delivered d hd).2⟩
  dsimp only
  rw [takeOIDCResultSession_maps]
  constructor
  case states => exact h.states.lose (cleanup_states cleanupNow s.sessions)
  case results => exact hledger
  case bounded => exact ⟨hbounded.1, (List.length_filter_le _ _).trans hbounded.2⟩
  case nonces => exact h.nonces
  case began => exact h.began
  case running => exact h.running
  case answers => exact h.answers
  case ids => exact h.ids
  case explained => exact h.explained
  case delivered =>
    cases htake : (takeOIDCResultSession (trimSpace sessionID) cleanupNow now s.sessions).2 with
    | error message =>
      simp only [List.append_nil]
      exact hdelivered
    | ok result =>
      obtain ⟨session, hfind, rfl, -⟩ := takeOIDCResultSession_ok htake
      intro d hd
      rcases List.mem_append.1 hd with hd | hd
      · exact hdelivered d hd
      · obtain rfl := List.mem_singleton.1 hd
        refine ⟨List.mem_append_right _ ?_, _,
          h.results.stored (cleanup_results _ _ (mem_of_lookup hfind)), rfl, rfl⟩
        rw [foundKey, hfind, Option.isSome_some, if_pos rfl]
        exact List.mem_singleton_self _
  case deliveredOnce =>
    cases htake : (takeOIDCResultSession (trimSpace sessionID) cleanupNow now s.sessions).2 with
    | error message =>
      simp only [List.append_nil]
      exact h.deliveredOnce
    | ok result =>
      obtain ⟨session, hfind, -, -⟩ := takeOIDCResultSession_ok htake
      -- a stored result was not taken before, and what was handed out was
      have hnew := h.results.gone _ (cleanup_results _ _ (mem_of_lookup hfind))
      rw [List.map_append, List.map_singleton, List.nodup_append]
      refine ⟨h.deliveredOnce, List.nodup_singleton _, ?_⟩
      rintro x hx _ hkey rfl
      obtain ⟨d, hd, rfl⟩ := List.mem_map.1 hx
      rw [List.mem_singleton] at hkey
      have htaken := (h.delivered d hd).1
      rw [hkey] at htaken
      exact hnew htaken

/-- What storing a result leaves true of the maps and of what was handed out. -/
theorem storeResult (h : OIDCInv s) {sessionID : String} (result : OIDCSessionResult)
    (cleanupNow createdAt now : Time) (hfresh : sessionID ∉ s.stored.map (·.1)) :
    Ledger (s.storeResult i sessionID result cleanupNow createdAt now).sessions.states s.begun
    s.takenStates ∧
      Ledger (s.storeResult i sessionID result cleanupNow createdAt now).sessions.results
        (s.storeResult i sessionID result cleanupNow createdAt now).stored s.takenResults ∧
      (s.storeResult i sessionID result cleanupNow createdAt now).sessions.states.length ≤
        maxOIDCStateSessions ∧
      (s.storeResult i sessionID result cleanupNow createdAt now).sessions.results.length ≤
        maxOIDCResultSession ∧
      s.stored ⊆ (s.storeResult i sessionID result cleanupNow createdAt now).stored := by
  refine ⟨h.states.lose (cleanup_states cleanupNow s.sessions), ?_, (h.cleaned cleanupNow).1,
    put_enforceLimit_length (by decide) _ _ _, List.subset_append_left _ _⟩
  exact (h.results.lose
    (List.Subset.trans (enforceLimit_subset _ _) (cleanup_results cleanupNow s.sessions))).issue hfresh _

theorem answerFailed (h : OIDCInv s) {sessionID : String} (purpose : OIDCPurpose) (message : String)
    (cleanupNow createdAt now : Time) (hfresh : sessionID ∉ s.stored.map (·.1)) :
    OIDCInv (s.storeResult i sessionID
      (callbackErrorResult purpose message) cleanupNow createdAt now) := by
  obtain ⟨hstates, hresults, hfew, hfewer, hsub⟩ :=
    h.storeResult (i := i) (callbackErrorResult purpose message) cleanupNow createdAt now hfresh
  refine ⟨hstates, hresults, ⟨hfew, hfewer⟩, h.nonces, h.began, h.running.stop, ?_, h.ids, ?_, ?_,
    h.deliveredOnce⟩
  · intro a ha
    obtain ⟨hfinished, hbegun, e, he, hsame⟩ := h.answers a ha
    exact ⟨hfinished, hbegun, e, hsub he, hsame⟩
  · intro e he
    rcases List.mem_append.1 he with he | he
    · exact h.explained e he
    · rw [List.mem_singleton.1 he]
      exact .inl ⟨purpose, message, rfl⟩
  · intro d hd
    obtain ⟨htaken, e, he, hsame⟩ := h.delivered d hd
    exact ⟨htaken, e, hsub he, hsame⟩

theorem answerFinished (h : OIDCInv s) {sessionID state : String} {session : OIDCStateSession}
    {identity : OIDCIdentity} {connection : OIDCConnection} {result : OIDCSessionResult}
    (cleanupNow createdAt now : Time)
    (hcallback : s.callbacks i = some (.finished state session identity connection result))
    (hfresh : sessionID ∉ s.stored.map (·.1)) :
    OIDCInv { s.storeResult i sessionID result cleanupNow createdAt now with
      answered := s.answered ++
        [⟨s.begunAt i, sessionID, state, session, identity, connection, result⟩] } := by
  obtain ⟨hstates, hresults, hfew, hfewer, hsub⟩ :=
    h.storeResult (i := i) result cleanupNow createdAt now hfresh
  have hfinished : Finished (s.view (s.begunAt i)) state session identity connection result :=
    h.running.sound i _ hcallback
  have hbegun := h.running.origin i _ hcallback _ rfl
  refine ⟨hstates, hresults, ⟨hfew, hfewer⟩, h.nonces, h.began, h.running.answer hcallback rfl, ?_,
    ?_, ?_, ?_, h.deliveredOnce⟩
  · intro a ha
    rcases List.mem_append.1 ha with ha | ha
    · obtain ⟨hok, hmem, e, he, hsame⟩ := h.answers a ha
      exact ⟨hok, hmem, e, hsub he, hsame⟩
    · rw [List.mem_singleton.1 ha]
      exact ⟨hfinished, hbegun, _, List.mem_append_right _ (List.mem_singleton_self _), rfl, rfl⟩
  · rw [List.map_append, List.map_singleton, List.nodup_append]
    refine ⟨h.ids, List.nodup_singleton _, ?_⟩
    rintro x hx _ hid rfl
    obtain ⟨a, ha, rfl⟩ := List.mem_map.1 hx
    obtain ⟨-, -, e, he, hsame, -⟩ := h.answers a ha
    exact hfresh (List.mem_map.2 ⟨e, he, hsame.trans (List.mem_singleton.1 hid)⟩)
  · intro e he
    rcases List.mem_append.1 he with he | he
    · rcases h.explained e he with herror | ⟨a, ha, hsame⟩
      · exact .inl herror
      · exact .inr ⟨a, List.mem_append_left _ ha, hsame⟩
    · rw [List.mem_singleton.1 he]
      exact .inr ⟨_, List.mem_append_right _ (List.mem_singleton_self _), rfl, rfl⟩
  · intro d hd
    obtain ⟨hin, e, he, hsame⟩ := h.delivered d hd
    exact ⟨hin, e, hsub he, hsame⟩

/-- The accounts may change at any time, as `past` keeps them. -/
theorem record (h : OIDCInv s) (accounts : AccountStore) :
    OIDCInv { s with accounts := accounts, past := s.past ++ [s.accounts] } := by
  have hgrows : ∀ begun, (s.view begun).Grows
      (OIDCSystem.view { s with accounts := accounts, past := s.past ++ [s.accounts] } begun) :=
    fun begun => ⟨rfl, List.prefix_append _ _, List.Subset.refl _⟩
  refine
    { h with
      began := fun i => (h.began i).trans ?_, running := h.running.see fun j _ _ => hgrows _,
      answers := ?_ }
  · dsimp only
    rw [List.length_append]
    exact Nat.le_add_right _ _
  · intro a ha
    obtain ⟨hfinished, hrest⟩ := h.answers a ha
    exact ⟨hfinished.mono (hgrows _), hrest⟩

/-- An event that leaves the accounts alone. -/
theorem unchanged (h : OIDCInv t) (haccounts : t.accounts = s.accounts) (hpast : t.past = s.past) :
    OIDCInv { t with past := s.past ++ [s.accounts] } := by
  have hrecord := h.record t.accounts
  rw [hpast] at hrecord
  rw [← haccounts]
  exact hrecord

theorem identify (h : OIDCInv s) {state : String} {session : OIDCStateSession}
    (hcallback : s.callbacks i = some (.taken state session)) (answer : CallbackAnswer) :
    OIDCInv { s with
      identified := s.identified ++ [(state, answer)]
      callbacks := set s.callbacks i (some (match answer.identity session with
        | .error message => .failed session.purpose message
        | .ok identity => .identified state session identity answer.autoCreateUser)) } := by
  have hne : session.nonce ≠ "" := h.nonces _ (h.running.origin i _ hcallback _ rfl)
  have hgrows : ∀ begun, (s.view begun).Grows
      (OIDCSystem.view { s with identified := s.identified ++ [(state, answer)] } begun) :=
    fun begun => ⟨rfl, List.prefix_refl _, List.subset_append_left _ _⟩
  have hrunning := h.running.see fun j _ _ => hgrows (s.begunAt j)
  refine
    { h with
      running := ?_, answers := fun a ha => ⟨(h.answers a ha).1.mono (hgrows _), (h.answers a ha).2⟩ }
  cases hidentity : answer.identity session with
  | error message => exact hrunning.move hcallback trivial (fun o ho => by cases ho)
  | ok identity =>
    refine hrunning.move hcallback ?_ fun o ho => ho
    exact ⟨answer, List.mem_append_right _ (List.mem_singleton_self _),
      answer.identity_vouches hne hidentity⟩

/-- The statement sees the accounts before it, the last that `past` has, and those after it. -/
theorem next (h : OIDCInv s) {callback after : Callback} {accounts : AccountStore}
    {generated : Generated} (hcallback : s.callbacks i = some callback)
    (hnext : callback.next s.accounts generated = some (accounts, after)) :
    OIDCInv
    { s with
      accounts := accounts, past := s.past ++ [s.accounts], callbacks := set s.callbacks i
        (some after) } := by
  have hrecord := h.record accounts
  have hbegan := h.began i
  obtain ⟨hsound, horigin⟩ := Callback.next_sound (hrecord.running.sound i _ hcallback) hnext
    (fun p hp => ⟨s.past.length, s.accounts, hbegan, by simp [OIDCSystem.view], hp⟩)
    (fun p hp => ⟨s.past.length + 1, accounts, Nat.le_succ_of_le hbegan, by simp [OIDCSystem.view], hp⟩)
  exact { hrecord with running := hrecord.running.move hcallback hsound horigin }

theorem step (h : OIDCInv s) (e : OIDCEvent) (hfits : e.Fits s) (hstep : s.step e = some t) :
    OIDCInv t := by
  obtain ⟨u, hact, rfl⟩ := Option.map_eq_some_iff.1 hstep
  cases e with
  | begin b state codeVerifier nonce start cleanupNow now =>
    rw [OIDCSystem.act] at hact
    split at hact
    · cases hact
    · obtain rfl := Option.some.inj hact
      have hbegin := h.begin b codeVerifier nonce start cleanupNow now hfits
      unfold OIDCSystem.begin at hbegin ⊢
      exact hbegin.unchanged rfl rfl
  | callback i state cleanupNow now =>
    rw [OIDCSystem.act] at hact
    split at hact
    · rename_i hidle
      obtain rfl := Option.some.inj hact
      obtain ⟨haccounts, hpast⟩ := callback_keeps s i state cleanupNow now
      exact (h.callback hidle state cleanupNow now).unchanged haccounts hpast
    · cases hact
  | identify i answer =>
    rw [OIDCSystem.act] at hact
    split at hact
    · rename_i hcallback
      obtain rfl := Option.some.inj hact
      exact (h.identify hcallback answer).unchanged rfl rfl
    · cases hact
  | next i generated =>
    obtain ⟨callback, hcallback, hact⟩ := Option.bind_eq_some_iff.1 hact
    obtain ⟨⟨accounts, after⟩, hnext, hact⟩ := Option.bind_eq_some_iff.1 hact
    obtain rfl := Option.some.inj hact
    exact h.next hcallback hnext
  | fail i message =>
    obtain ⟨callback, hcallback, hact⟩ := Option.bind_eq_some_iff.1 hact
    obtain rfl := Option.some.inj hact
    have hrecord := h.record s.accounts
    obtain ⟨hsound, hnone⟩ := callback.failedWith_sound message
    refine { hrecord with running := hrecord.running.move hcallback hsound fun o ho => ?_ }
    rw [hnone] at ho
    cases ho
  | answer i sessionID cleanupNow createdAt now =>
    rw [OIDCSystem.act] at hact
    split at hact
    · obtain rfl := Option.some.inj hact
      exact (h.answerFailed _ _ cleanupNow createdAt now hfits).unchanged rfl rfl
    · rename_i hcallback
      obtain rfl := Option.some.inj hact
      exact (h.answerFinished cleanupNow createdAt now hcallback hfits).unchanged rfl rfl
    · cases hact
  | consume sessionID cleanupNow now =>
    obtain rfl := Option.some.inj hact
    exact (h.consume sessionID cleanupNow now).unchanged rfl rfl
  | others accounts =>
    obtain rfl := Option.some.inj hact
    exact h.record accounts

end OIDCInv

/-- Over every run: a state session is answered once at most, and a result session handed out once
at most; what is handed out is an error, or rests on an identity that was made for the session it
answers and whose subject was connected to the account it speaks for; the maps stay bounded. -/
theorem oidc_sessions_answer_once (accounts : AccountStore) (s : OIDCSystem)
    (h : Path OIDCSystem.step (fun s e => e.Fits s) (.initial accounts) s) :
    (s.answered.map (·.state)).Nodup ∧ (s.delivered.map (·.1)).Nodup ∧
      (∀ d ∈ s.delivered, (∃ purpose message, d.2 = callbackErrorResult purpose message) ∨
        ∃ a ∈ s.answered, a.sessionID = d.1 ∧ a.result = d.2 ∧ (a.state, a.session) ∈ s.begun ∧
          Finished (s.view a.begun) a.state a.session a.identity a.connection a.result) ∧
      s.sessions.states.length ≤ maxOIDCStateSessions ∧
        s.sessions.results.length ≤ maxOIDCResultSession := by
  have hinv : OIDCInv s :=
    h.invariant OIDCInv (fun _ e _ hinv hfits hstep => hinv.step e hfits hstep) (.initial accounts)
  refine ⟨hinv.running.custody.once, hinv.deliveredOnce, ?_, hinv.bounded⟩
  intro d hd
  obtain ⟨-, e, he, hid, hresult⟩ := hinv.delivered d hd
  rcases hinv.explained e he with ⟨purpose, message, herror⟩ | ⟨a, ha, haid, haresult⟩
  · exact .inl ⟨purpose, message, hresult.symm.trans herror⟩
  · obtain ⟨hfinished, hbegun, -⟩ := hinv.answers a ha
    exact .inr ⟨a, ha, haid.trans hid, haresult.trans hresult, hbegun, hfinished⟩

/-- The root administrator, connected to the subject `sub-1`. -/
def sampleConnectedAccounts : AccountStore :=
  ⟨[⟨1, "root", "root@example.com", "hash", "admin", "active", false⟩],
    [⟨1, "sub-1", "root@example.com"⟩], 2⟩

def sampleNonce : NonceBytes := ⟨List.replicate 24 7, by decide⟩

/-- A subject signs in, for a session with `sampleNonce`. -/
def sampleCallbackAnswer (subject email : String) : CallbackAnswer where
  code := "code"
  providerError := ""
  providerErrorDescription := ""
  available := true
  autoCreateUser := true
  idToken := .ok ⟨⟨subject, email, "alice", "Alice"⟩, Base64.encode sampleNonce.1⟩
  userInfo := none

/-- A step-up and a login, whose callbacks overlap; the first of them is repeated, and its result
consumed twice. The login makes an account. -/
def sampleOIDCEvents : List OIDCEvent :=
  [.begin (.reauth 1 "backup") "state-1" "verifier" sampleNonce ⟨1, 0⟩ ⟨2, 0⟩ ⟨3, 0⟩,
   .begin .login "state-2" "verifier" sampleNonce ⟨4, 0⟩ ⟨5, 0⟩ ⟨6, 0⟩,
   .callback 0 "state-1" ⟨7, 0⟩ ⟨8, 0⟩, .callback 1 "state-1" ⟨9, 0⟩ ⟨10, 0⟩, .callback 2 "state-2"
     ⟨11, 0⟩ ⟨12, 0⟩,
   .identify 0 (sampleCallbackAnswer " sub-1 " "root@example.com"),
     .identify 2 (sampleCallbackAnswer "sub-2" "alice@example.com"),
   .next 0 ⟨"", "", ""⟩, .next 2 ⟨"hash-2", "", ""⟩, .next 0 ⟨"", "", ""⟩,
     .next 2 ⟨"", "token", "refresh"⟩,
   .answer 0 "result-1" ⟨13, 0⟩ ⟨14, 0⟩ ⟨15, 0⟩, .answer 1 "result-2" ⟨16, 0⟩ ⟨17, 0⟩ ⟨18, 0⟩,
   .answer 2 "result-3" ⟨19, 0⟩ ⟨20, 0⟩ ⟨21, 0⟩, .consume "result-1" ⟨22, 0⟩ ⟨23, 0⟩,
     .consume "result-1" ⟨24, 0⟩ ⟨25, 0⟩,
   .consume "result-2" ⟨26, 0⟩ ⟨27, 0⟩, .consume "result-3" ⟨28, 0⟩ ⟨29, 0⟩]

/-- Both results that are no error were answered by their own subjects, connected to their own
accounts. -/
theorem oidc_sessions_answer_once_sample :
    ∃ s : OIDCSystem, s.answered.length = 2 ∧ s.delivered.map (·.1) =
    ["result-1", "result-2", "result-3"] ∧
      (s.answered.map (·.state)).Nodup ∧ ∀ d ∈ s.delivered, d.2.error = "" → ∃ a ∈ s.answered,
        a.sessionID = d.1 ∧
        (s.view a.begun).Identified a.state a.session a.identity ∧
        (s.view a.begun).Connected a.identity.claims.subject a.connection.userID ∧
        ((a.state, a.identity.claims.subject, a.connection.userID) = ("state-1", "sub-1", 1) ∨
          (a.state, a.identity.claims.subject, a.connection.userID) = ("state-2", "sub-2", 2)) := by
  have hrun : (exec OIDCSystem.step (fun s e => e.Fits s)
      (.initial sampleConnectedAccounts) sampleOIDCEvents).any (fun s =>
      s.delivered.map (·.1) = ["result-1", "result-2", "result-3"] ∧
        s.answered.map (fun a => (a.state, a.identity.claims.subject, a.connection.userID)) =
          [("state-1", "sub-1", 1), ("state-2", "sub-2", 2)] ∧
        ∀ d ∈ s.delivered, d.2.error = "" → d.2 ≠ callbackErrorResult d.2.purpose "") = true := by
    decide +kernel
  obtain ⟨s, hs, hfacts⟩ := (Option.any_eq_true _ _).1 hrun
  obtain ⟨hdelivered, hanswered, hno⟩ := of_decide_eq_true hfacts
  obtain ⟨honce, -, hrest, -⟩ := oidc_sessions_answer_once sampleConnectedAccounts s (Path.of_exec hs)
  refine ⟨s, by simpa using congrArg List.length hanswered, hdelivered, honce, fun d hd hok => ?_⟩
  rcases hrest d hd with ⟨purpose, message, herror⟩ | ⟨a, ha, hid, -, -, hfinished⟩
  · refine absurd ?_ (hno d hd hok)
    rw [herror] at hok ⊢
    obtain rfl : message = "" := hok
    rfl
  · have hmem : (a.state, a.identity.claims.subject, a.connection.userID) ∈
        s.answered.map fun a => (a.state, a.identity.claims.subject, a.connection.userID) :=
          List.mem_map_of_mem ha
    rw [hanswered] at hmem
    exact ⟨a, ha, hid, hfinished.identified, hfinished.connected, by simpa using hmem⟩

end Subdux
