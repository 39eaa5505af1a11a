import Subdux.Accounts
import Subdux.RefreshChains
/-!
# Password changes

`Login`, `VerifyTOTPLogin`, `RefreshSession`, `ChangePassword` and `ResetPassword` side by side,
each statement, transaction and bcrypt comparison a step of its own. A chain of refresh tokens
starts where a login is issued one (`ChainSystem`); `generation` counts the changes of a user's
password, and `verified` says which of the passwords a chain was issued for. The comparison of
bcrypt is a parameter; the answers of the code checks and generated values come with the events.

`password_change_cuts_off`: no unrevoked or later token comes from an earlier password, in every
run that issues none for a password that was changed after it was read.
-/

namespace Subdux
open Rows GoStrings Results
open ImportService (sqlLower)
open Runs (Path exec)

/-! ## Calls -/

/-- The signed token between the two factors, with the password that it was given for. -/
structure PendingToken where
  userID : Nat
  expiresAt : Time
  seen : Nat
  deriving DecidableEq

/-- `jwt.NewNumericDate` cuts the time to seconds. -/
def generateTOTPPendingToken (userID : Nat) (now : Time) (seen : Nat) : PendingToken :=
  ⟨userID, ⟨(now.nanos + 300 * nsPerSecond) / nsPerSecond * nsPerSecond, now.offset⟩, seen⟩

/-- What a call does next. `seen` is the password of the row that it has read, by its generation. -/
inductive AuthPhase where
  /-- `Login`, before the comparison and before the refresh token; `CreateSession` ends in the
  latter, too. -/
  | comparing (user : SessionUser) (seen : Nat) (password : String)
  | issuing (user : SessionUser) (seen : Nat)
  /-- `VerifyTOTPLogin`, before the code is checked and before `CreateSession`. -/
  | checkingCode (pending : PendingToken)
  | creatingSession (pending : PendingToken)
  /-- `ChangePassword`, before the comparison. -/
  | comparingCurrent (user : SessionUser) (currentPassword newPassword : String)
  /-- `ResetPassword`, before the code is consumed. -/
  | consumingCode (userID : Nat) (newPassword : String)
  /-- Both, before the transaction. -/
  | storing (userID : Nat)
  deriving DecidableEq

structure PasswordSystem where
  sessions : ChainSystem
  pendingTokens : List PendingToken
  calls : Nat → Option AuthPhase
  generation : Nat → Nat
  verified : Nat → Nat

inductive AuthEvent where
  | login (i : Nat) (identifier password : String)
  | compare (i : Nat) (now : Time)
  /-- The refresh token is generated and stored. -/
  | issue (i : Nat) (tokenHash : String) (expiresAt : Time)
  | verifyTOTPLogin (i : Nat) (pending : PendingToken) (now : Time)
  | checkCode (i : Nat) (valid : Bool)
  | createSession (i : Nat)
  | refresh (rawRefreshToken : String) (now : Time) (newHash : String) (newExpires : Time)
  | changePassword (i userID : Nat) (currentPassword newPassword : String)
  | compareCurrent (i : Nat)
  | resetPassword (i : Nat) (email newPassword : String)
  | consumeCode (i : Nat) (valid : Bool)
  | store (i : Nat) (hash : String) (now : Time)
  /-- The next operation of the call fails, and the call with it. -/
  | fail (i : Nat)

namespace PasswordSystem

def users (s : PasswordSystem) : List SessionUser := s.sessions.store.users

/-- The call goes on in another phase, or ends. -/
def goTo (s : PasswordSystem) (i : Nat) (phase : Option AuthPhase) : PasswordSystem :=
  { s with calls := Runs.set s.calls i phase }

def setSessions (s : PasswordSystem) (sessions : ChainSystem) : PasswordSystem := { s with sessions }

/-- A new chain is issued for the password `seen`. -/
def setVerified (s : PasswordSystem) (chain seen : Nat) : PasswordSystem :=
  { s with verified := Function.update s.verified chain seen }

def givePending (s : PasswordSystem) (pending : PendingToken) : PasswordSystem :=
  { s with pendingTokens := s.pendingTokens ++ [pending] }

def nextGeneration (s : PasswordSystem) (userID : Nat) : PasswordSystem :=
  { s with generation := Function.update s.generation userID (s.generation userID + 1) }

/-- The row that `Login` reads, where it goes on. -/
def findActive (s : PasswordSystem) (identifier : String) : Option SessionUser :=
  (s.users.find? fun user => sqlLower user.email = toLower (trimSpace identifier) ∨
    user.username = trimSpace identifier).filter
    (·.status ≠ "disabled")

/-- The new password is short enough for bcrypt, and its hash is to be stored. -/
def toStore (userID : Nat) (newPassword : String) : Option AuthPhase :=
  match validateBcryptPasswordLength newPassword with
  | .error _ => none
  | .ok _ => some (.storing userID)

section Step
variable (hashToken : String → String) (ctx : AuthContext) (bcryptMatches : String → String → Bool)

def callStep (s : PasswordSystem) (i : Nat) (phase : AuthPhase) : AuthEvent → Option PasswordSystem
  | .compare _ now =>
    match phase with
    | .comparing user seen password =>
      if bcryptMatches user.password password then
        if user.totpEnabled then
          some ((s.givePending (generateTOTPPendingToken user.id now seen)).goTo i none)
        else some (s.goTo i (some (.issuing user seen)))
      else some (s.goTo i none)
    | _ => none
  | .issue _ tokenHash expiresAt =>
    match phase with
    | .issuing user seen =>
      (s.sessions.step hashToken (.login user.id tokenHash expiresAt)).map fun sessions =>
        ((s.setVerified s.sessions.store.nextTokenID seen).setSessions sessions).goTo i none
    | _ => none
  | .checkCode _ valid =>
    match phase with
    | .checkingCode pending => some (s.goTo i (if valid then some (.creatingSession pending) else none))
    | _ => none
  | .createSession _ =>
    match phase with
    | .creatingSession pending =>
      some (s.goTo i (((s.users.find? (·.id = pending.userID)).filter (·.status = "active")).map
        (.issuing · pending.seen)))
    | _ => none
  | .compareCurrent _ =>
    match phase with
    | .comparingCurrent user currentPassword newPassword =>
      some (s.goTo i (if bcryptMatches user.password currentPassword
        then toStore user.id newPassword else none))
    | _ => none
  | .consumeCode _ valid =>
    match phase with
    | .consumingCode userID newPassword =>
      some (s.goTo i (if valid then toStore userID newPassword else none))
    | _ => none
  | .store _ hash now =>
    match phase with
    | .storing userID =>
      (s.sessions.step hashToken (.changePassword userID hash now)).map fun sessions =>
        ((s.nextGeneration userID).setSessions sessions).goTo i none
    | _ => none
  | .fail _ => some (s.goTo i none)
  | _ => none

/-- A call under a number that no call has. -/
def enter (s : PasswordSystem) (i : Nat) (phase : Option AuthPhase) : Option PasswordSystem :=
  if (s.calls i).isSome then none else some (s.goTo i phase)

end Step
end PasswordSystem

/-- The call whose next operation this is. -/
def AuthEvent.callOf : AuthEvent → Option Nat
  | .login _ _ _ | .verifyTOTPLogin _ _ _ | .refresh _ _ _ _ | .changePassword
    _ _ _ _ | .resetPassword _ _ _ => none
  | .compare i _ | .issue i _ _ | .checkCode i _ | .createSession i | .compareCurrent
    i | .consumeCode i _ | .store i _ _
  | .fail i => some i

/-- The user whose password is to be reset. -/
def PasswordSystem.findReset (ctx : AuthContext) (s : PasswordSystem) (email : String) :
    Option SessionUser :=
  match sanitizeAndValidateEmail ctx email with
  | .error _ => none
  | .ok normalized => s.users.find? fun user => sqlLower user.email = normalized

section Step
variable (hashToken : String → String) (ctx : AuthContext) (bcryptMatches : String → String → Bool)

def PasswordSystem.step (s : PasswordSystem) (e : AuthEvent) : Option PasswordSystem :=
  match e with
  | .login i identifier password =>
    s.enter i ((s.findActive identifier).map fun user => .comparing user (s.generation user.id) password)
  | .verifyTOTPLogin i pending now =>
    s.enter i (if pending ∈ s.pendingTokens ∧ now.before pending.expiresAt
      then some (.checkingCode pending) else none)
  | .refresh raw now newHash newExpires =>
    (s.sessions.step hashToken (.refresh raw now newHash newExpires)).map s.setSessions
  | .changePassword i userID currentPassword newPassword =>
    s.enter i ((s.users.find? (·.id = userID)).map (.comparingCurrent · currentPassword newPassword))
  | .resetPassword i email newPassword =>
    s.enter i ((s.findReset ctx email).map fun user => .consumingCode user.id newPassword)
  | e =>
    e.callOf.bind fun i => (s.calls i).bind fun phase => s.callStep hashToken bcryptMatches i phase e

end Step

/-- No change has been made and no call is under way. Each refresh token is a chain of its own. -/
structure PasswordSystem.Initial (s : PasswordSystem) : Prop where
  ids : TokenIDs s.sessions.store
  chains : s.sessions.chain = id
  calls : s.calls = fun _ => none
  pendingTokens : s.pendingTokens = []
  generation : s.generation = fun _ => 0
  verified : s.verified = fun _ => 0

/-- The user that a refresh token is about to be issued to, and the password that it is issued for. -/
def AuthPhase.issuedTo : AuthPhase → Option (Nat × Nat)
  | .issuing user seen => some (user.id, seen)
  | _ => none

/-- A refresh token is issued for the password that is the user's now. -/
def IssuesCurrent (s : PasswordSystem) : AuthEvent → Prop
  | .issue i _ _ => ∀ issued ∈ (s.calls i).bind (·.issuedTo), issued.2 = s.generation issued.1
  | _ => True

instance (s : PasswordSystem) (e : AuthEvent) : Decidable (IssuesCurrent s e) := by
  cases e <;> unfold IssuesCurrent <;> infer_instance

/-! ## Refresh tokens after a step -/

section Rows
variable {hashToken : String → String} {c c' : ChainSystem} {userID : Nat}
  {tokenHash raw hash : String} {now expiresAt : Time}
  {token : RefreshToken}

/-- The row is one of before, perhaps revoked since, in its chain. -/
structure OldRow (c c' : ChainSystem) (old token : RefreshToken) : Prop where
  mem : old ∈ c.store.tokens
  id : token.id = old.id
  userID : token.userID = old.userID
  unrevoked : token.revokedAt = none → old.revokedAt = none
  chain : c'.chain token.id = c.chain old.id

theorem findRefreshable_mem {store : SessionStore} {stored : RefreshToken}
    (h : findRefreshable hashToken raw now store = .ok stored) : stored ∈ store.tokens := by
  unfold findRefreshable at h
  dsimp only at h
  split at h
  · cases h
  split at h
  · cases h
  rename_i found hfind
  have hmem := List.mem_of_find?_eq_some hfind
  split at h
  · cases h
  split at h
  · cases h
  split at h
  · cases h
  · cases h
    exact hmem

theorem oldRow_of_mem (h : token ∈ c.store.tokens) (hchain : c'.chain token.id = c.chain token.id) :
    OldRow c c' token token :=
  ⟨h, rfl, rfl, id, hchain⟩

theorem oldRow_of_revoked {p : RefreshToken → Bool} {revoke : RefreshToken → RefreshToken}
    (h : token ∈ (revokeWhere p revoke c.store).tokens)
    (hrevoke : ∀ token, (revoke token).id = token.id ∧ (revoke token).userID = token.userID ∧
      (revoke token).revokedAt.isSome)
    (hchain : ∀ old ∈ c.store.tokens, c'.chain old.id = c.chain old.id) :
    ∃ old, OldRow c c' old token := by
  rcases mem_updateWhere_cases h with ⟨hmem, -⟩ | ⟨old, hmem, -, rfl⟩
  · exact ⟨token, oldRow_of_mem hmem (hchain token hmem)⟩
  · obtain ⟨hid, huser, hsome⟩ := hrevoke old
    refine ⟨old, hmem, hid, huser, fun hnone => ?_, (congrArg c'.chain hid).trans (hchain old hmem)⟩
    rw [hnone] at hsome
    cases hsome

/-- A login adds the start of a chain, if anything. -/
theorem login_rows (hids : TokenIDs c.store)
    (h : c.step hashToken (.login userID tokenHash expiresAt) = some c') :
    c.store.nextTokenID ≤ c'.store.nextTokenID ∧ ∀ token ∈ c'.store.tokens,
    (∃ old, OldRow c c' old token) ∨
      (token.id = c.store.nextTokenID ∧ c.store.nextTokenID < c'.store.nextTokenID ∧
        token.userID = userID ∧
        c'.chain token.id = c.store.nextTokenID) := by
  simp only [ChainSystem.step] at h
  split at h
  · obtain rfl := Option.some.inj h
    exact ⟨le_rfl, fun token htoken => .inl ⟨token, oldRow_of_mem htoken rfl⟩⟩
  · rename_i store hinsert
    obtain rfl := Option.some.inj h
    obtain rfl := insertRefreshToken_ok hinsert
    refine ⟨Nat.le_succ _, fun token htoken => ?_⟩
    rcases List.mem_append.1 htoken with htoken | htoken
    · exact .inl ⟨token, oldRow_of_mem htoken (Function.update_of_ne (hids.fresh token htoken).ne ..)⟩
    · obtain rfl := List.mem_singleton.1 htoken
      exact .inr ⟨rfl, Nat.lt_succ_self _, rfl, Function.update_self ..⟩

/-- An exchange adds to the chain of an unrevoked token of the same user, if anything. -/
theorem refresh_rows (hids : TokenIDs c.store)
    (h : c.step hashToken (.refresh raw now hash expiresAt) = some c') :
    c.store.nextTokenID ≤ c'.store.nextTokenID ∧ ∀ token ∈ c'.store.tokens,
    (∃ old, OldRow c c' old token) ∨
      (token.id = c.store.nextTokenID ∧ c.store.nextTokenID < c'.store.nextTokenID ∧
        ∃ stored ∈ c.store.tokens, stored.revokedAt = none ∧ token.userID = stored.userID ∧
          c'.chain token.id = c.chain stored.id) := by
  simp only [ChainSystem.step] at h
  split at h
  · rename_i stored store hfind hrefresh
    obtain rfl := Option.some.inj h
    obtain ⟨⟨other, hother, hid, hnone⟩, hinsert⟩ := refreshSession_ok hfind hrefresh
    obtain rfl := eq_of_key hids.unique hother (findRefreshable_mem hfind) hid
    obtain rfl := insertRefreshToken_ok hinsert
    refine ⟨Nat.le_succ _, fun token htoken => ?_⟩
    rcases List.mem_append.1 htoken with htoken | htoken
    · exact .inl (oldRow_of_revoked htoken (fun _ => ⟨rfl, rfl, rfl⟩)
        fun old hold => Function.update_of_ne (hids.fresh old hold).ne ..)
    · obtain rfl := List.mem_singleton.1 htoken
      exact .inr ⟨rfl, Nat.lt_succ_self _, other, hother, Option.isNone_iff_eq_none.1 hnone, rfl,
        Function.update_self ..⟩
  · obtain rfl := Option.some.inj h
    exact ⟨le_rfl, fun token htoken => .inl ⟨token, oldRow_of_mem htoken rfl⟩⟩

/-- A change of the password leaves the user no unrevoked token. -/
theorem changePassword_rows (h : c.step hashToken (.changePassword userID hash now) = some c') :
    c'.store.nextTokenID = c.store.nextTokenID ∧ ∀ token ∈ c'.store.tokens,
    (∃ old, OldRow c c' old token) ∧
      (token.revokedAt = none → token.userID ≠ userID) := by
  obtain rfl := Option.some.inj h
  refine ⟨rfl, fun token htoken => ?_⟩
  have hrevoked : token ∈
      (revokeWhere (·.userID = userID)
        (fun token => { token with revokedAt := some now }) c.store).tokens := htoken
  refine ⟨oldRow_of_revoked hrevoked (fun _ => ⟨rfl, rfl, rfl⟩) fun _ _ => rfl, ?_⟩
  rcases mem_updateWhere_cases hrevoked with ⟨hmem, hnot⟩ | ⟨old, hmem, -, rfl⟩
  · rintro hnone rfl
    simp [hnone] at hnot
  · exact fun hnone => nomatch hnone

end Rows

/-! ## What a step keeps -/

section Steps
variable {hashToken : String → String} {ctx : AuthContext} {bcryptMatches : String → String → Bool}
  {s t u : PasswordSystem}
  {e : AuthEvent} {token : RefreshToken}

/-- A step that touches neither table. -/
structure QuietStep (s t : PasswordSystem) : Prop where
  sessions : t.sessions = s.sessions
  generation : t.generation = s.generation
  verified : t.verified = s.verified

theorem quiet_goTo (s : PasswordSystem) (i : Nat) (phase : Option AuthPhase) :
    QuietStep s (s.goTo i phase) := ⟨rfl, rfl, rfl⟩

theorem quiet_enter {i : Nat} {phase : Option AuthPhase} (h : s.enter i phase = some t) :
    QuietStep s t := by
  unfold PasswordSystem.enter at h
  split at h
  · cases h
  · obtain rfl := Option.some.inj h
    exact quiet_goTo s i phase

/-- What a step does to the refresh tokens, and to what is known of them. -/
theorem password_step_cases (h : s.step hashToken ctx bcryptMatches e = some t) :
    QuietStep s t ∨
    (∃ i user seen tokenHash expiresAt, e = .issue i tokenHash expiresAt ∧
      s.calls i = some (.issuing user seen) ∧
      s.sessions.step hashToken (.login user.id tokenHash expiresAt) = some t.sessions ∧
        t.generation = s.generation ∧
      t.verified = Function.update s.verified s.sessions.store.nextTokenID seen) ∨
    (∃ raw now newHash newExpires, s.sessions.step hashToken
      (.refresh raw now newHash newExpires) = some t.sessions ∧
      t.generation = s.generation ∧ t.verified = s.verified) ∨
    ∃ userID hash now, s.sessions.step hashToken (.changePassword userID hash now) = some t.sessions ∧
      t.generation = Function.update s.generation userID (s.generation userID + 1) ∧
        t.verified = s.verified := by
  have hquiet : ∀ i phase, s.goTo i phase = t → QuietStep s t :=
    fun i phase heq => heq ▸ quiet_goTo s i phase
  -- an event of a call finds the call in its phase
  have hcall : (e.callOf.bind fun i => (s.calls i).bind fun phase =>
      s.callStep hashToken bcryptMatches i phase e) = some t →
      ∃ i phase, e.callOf = some i ∧ s.calls i = some phase ∧
        s.callStep hashToken bcryptMatches i phase e = some t := by
    intro h
    obtain ⟨i, hi, h⟩ := Option.bind_eq_some_iff.1 h
    obtain ⟨phase, hphase, h⟩ := Option.bind_eq_some_iff.1 h
    exact ⟨i, phase, hi, hphase, h⟩
  cases e with
  | login i identifier password => exact .inl (quiet_enter h)
  | verifyTOTPLogin i pending now => exact .inl (quiet_enter h)
  | changePassword i userID currentPassword newPassword => exact .inl (quiet_enter h)
  | resetPassword i email newPassword => exact .inl (quiet_enter h)
  | refresh raw now newHash newExpires =>
    obtain ⟨sessions, hsessions, rfl⟩ := Option.map_eq_some_iff.1 h
    exact .inr (.inr (.inl ⟨raw, now, newHash, newExpires, hsessions, rfl, rfl⟩))
  | issue i tokenHash expiresAt =>
    obtain ⟨j, phase, hi, hphase, h⟩ := hcall h
    obtain rfl := Option.some.inj hi
    cases phase <;> simp only [PasswordSystem.callStep, reduceCtorEq] at h
    obtain ⟨sessions, hsessions, rfl⟩ := Option.map_eq_some_iff.1 h
    exact .inr (.inl ⟨_, _, _, tokenHash, expiresAt, rfl, hphase, hsessions, rfl, rfl⟩)
  | store i hash now =>
    obtain ⟨j, phase, hi, hphase, h⟩ := hcall h
    obtain rfl := Option.some.inj hi
    cases phase <;> simp only [PasswordSystem.callStep, reduceCtorEq] at h
    obtain ⟨sessions, hsessions, rfl⟩ := Option.map_eq_some_iff.1 h
    exact .inr (.inr (.inr ⟨_, hash, now, hsessions, rfl, rfl⟩))
  | compare i now =>
    obtain ⟨j, phase, -, -, h⟩ := hcall h
    cases phase <;> simp only [PasswordSystem.callStep, reduceCtorEq] at h
    split at h
    · split at h
      · obtain rfl := Option.some.inj h
        exact .inl ⟨rfl, rfl, rfl⟩
      · exact .inl (hquiet _ _ (Option.some.inj h))
    · exact .inl (hquiet _ _ (Option.some.inj h))
  | fail i =>
    obtain ⟨j, phase, -, -, h⟩ := hcall h
    exact .inl (hquiet _ _ (Option.some.inj h))
  | checkCode i valid | createSession i | compareCurrent i | consumeCode i valid =>
    obtain ⟨j, phase, -, -, h⟩ := hcall h
    cases phase <;> simp only [PasswordSystem.callStep, reduceCtorEq] at h
    exact .inl (hquiet _ _ (Option.some.inj h))

/-- An unrevoked token is of a chain that was issued for the password its user has now. -/
structure CurrentTokens (s : PasswordSystem) : Prop where
  ids : TokenIDs s.sessions.store
  chains : ∀ token ∈ s.sessions.store.tokens, s.sessions.chain token.id < s.sessions.store.nextTokenID
  current : ∀ token ∈ s.sessions.store.tokens, token.revokedAt = none →
    s.verified (s.sessions.chain token.id) = s.generation token.userID

/-- A row of the next state that was there: its chain is known as before, and if it is unrevoked,
its user's password stays. -/
structure RowStays (s t : PasswordSystem) (old token : RefreshToken) :
    Prop extends OldRow s.sessions t.sessions old token where
  verified : t.verified (t.sessions.chain token.id) = s.verified (s.sessions.chain old.id)
  generation : token.revokedAt = none → t.generation token.userID = s.generation token.userID

/-- A row that is new, in a chain for the password its user has now. -/
structure RowAdded (s t : PasswordSystem) (token : RefreshToken) : Prop where
  id : token.id = s.sessions.store.nextTokenID
  chain : t.sessions.chain token.id < t.sessions.store.nextTokenID
  verified : t.verified (t.sessions.chain token.id) = t.generation token.userID

/-- The refresh tokens after a step that issues none for a password that was changed. -/
theorem password_step_rows (hs : CurrentTokens s) (hok : IssuesCurrent s e)
    (h : s.step hashToken ctx bcryptMatches e = some t) :
    TokenIDs t.sessions.store ∧ s.sessions.store.nextTokenID ≤ t.sessions.store.nextTokenID ∧
      (∀ userID, s.generation userID ≤ t.generation userID) ∧
      ∀ token ∈ t.sessions.store.tokens, (∃ old, RowStays s t old token) ∨ RowAdded s t token := by
  rcases password_step_cases h with hquiet |
    ⟨i, user, seen, tokenHash, expiresAt, rfl, hcall, hstep, hgeneration, hverified⟩ |
    ⟨raw, now, newHash, newExpires, hstep, hgeneration, hverified⟩ |
      ⟨userID, hash, now, hstep, hgeneration, hverified⟩
  · rw [hquiet.sessions, hquiet.generation]
    refine ⟨hs.ids, le_rfl, fun _ => le_rfl, fun token htoken => .inl ⟨token, ?_⟩⟩
    refine ⟨oldRow_of_mem htoken (by rw [hquiet.sessions]), ?_, fun _ => by rw [hquiet.generation]⟩
    rw [hquiet.sessions, hquiet.verified]
  · obtain ⟨hnext, hrows⟩ := login_rows hs.ids hstep
    refine ⟨(step_rotation hs.ids hstep).1, hnext, fun _ => (congrFun hgeneration _).ge,
      fun token htoken => ?_⟩
    rcases hrows token htoken with ⟨old, hold⟩ | ⟨hid, hlt, huser, hchain⟩
    · refine .inl ⟨old, hold, ?_, fun _ => congrFun hgeneration _⟩
      rw [hold.chain, hverified, Function.update_of_ne (hs.chains old hold.mem).ne]
    · refine .inr ⟨hid, hchain ▸ hlt, ?_⟩
      rw [hchain, hverified, Function.update_self, hgeneration, huser]
      exact hok (user.id, seen) (by rw [hcall]; rfl)
  · obtain ⟨hnext, hrows⟩ := refresh_rows hs.ids hstep
    refine ⟨(step_rotation hs.ids hstep).1, hnext, fun _ => (congrFun hgeneration _).ge,
      fun token htoken => ?_⟩
    rcases hrows token htoken with ⟨old, hold⟩ | ⟨hid, hlt, stored, hstored, hnone, huser, hchain⟩
    · exact .inl ⟨old, hold, by rw [hold.chain, hverified], fun _ => congrFun hgeneration _⟩
    -- The new token takes over the chain of an unrevoked one.
    · refine .inr ⟨hid, ?_, ?_⟩
      · rw [hchain]
        exact (hs.chains stored hstored).trans_le hnext
      · rw [hchain, hverified, hgeneration, huser]
        exact hs.current stored hstored hnone
  · obtain ⟨hnext, hrows⟩ := changePassword_rows hstep
    refine ⟨(step_rotation hs.ids hstep).1, hnext.ge, fun other => ?_, fun token htoken => ?_⟩
    · rw [hgeneration]
      by_cases hother : other = userID
      · rw [hother, Function.update_self]
        exact Nat.le_succ _
      · rw [Function.update_of_ne hother]
    · obtain ⟨⟨old, hold⟩, hne⟩ := hrows token htoken
      refine .inl ⟨old, hold, by rw [hold.chain, hverified], fun hnone => ?_⟩
      rw [hgeneration, Function.update_of_ne (hne hnone)]

theorem CurrentTokens.step (hs : CurrentTokens s) (hok : IssuesCurrent s e)
    (h : s.step hashToken ctx bcryptMatches e = some t) : CurrentTokens t := by
  obtain ⟨hids, hnext, -, hrows⟩ := password_step_rows hs hok h
  refine ⟨hids, fun token htoken => ?_, fun token htoken hnone => ?_⟩
  · rcases hrows token htoken with ⟨old, hold⟩ | hadded
    · rw [hold.chain]
      exact (hs.chains old hold.mem).trans_le hnext
    · exact hadded.chain
  · rcases hrows token htoken with ⟨old, hold⟩ | hadded
    · rw [hold.verified, hold.generation hnone, hold.userID]
      exact hs.current old hold.mem (hold.unrevoked hnone)
    · exact hadded.verified

/-- What `u` has that `s` had not: changes of passwords, and tokens that come from none of the
passwords before. -/
structure NewerTokens (s u : PasswordSystem) : Prop where
  generation : ∀ userID, s.generation userID ≤ u.generation userID
  newer : ∀ token ∈ u.sessions.store.tokens, s.sessions.store.nextTokenID ≤ token.id →
    s.generation token.userID ≤ u.verified (u.sessions.chain token.id)

theorem newerTokens_refl (hs : CurrentTokens s) : NewerTokens s s :=
  ⟨fun _ => le_rfl, fun token htoken hle => absurd (hs.ids.fresh token htoken) hle.not_gt⟩

theorem NewerTokens.step (hsu : NewerTokens s t) (ht : CurrentTokens t) (hok : IssuesCurrent t e)
    (h : t.step hashToken ctx bcryptMatches e = some u) : NewerTokens s u := by
  obtain ⟨-, -, hgeneration, hrows⟩ := password_step_rows ht hok h
  refine ⟨fun userID => (hsu.generation userID).trans (hgeneration userID), fun token htoken hle => ?_⟩
  rcases hrows token htoken with ⟨old, hold⟩ | hadded
  · rw [hold.verified, hold.userID]
    exact hsu.newer old hold.mem (hold.id ▸ hle)
  · rw [hadded.verified]
    exact (hsu.generation _).trans (hgeneration _)

theorem PasswordSystem.Initial.current (h : s.Initial) : CurrentTokens s := by
  refine ⟨h.ids, fun token htoken => ?_, fun token htoken _ => ?_⟩
  · rw [h.chains]
    exact h.ids.fresh token htoken
  · rw [h.verified, h.generation]

end Steps

/-- After any state of a run, such as the one in which a change of a password has returned, a
refresh token that is unrevoked or new comes from no password that its user had before. -/
theorem password_change_cuts_off (hashToken : String → String) (ctx : AuthContext)
    (bcryptMatches : String → String → Bool) (s t u : PasswordSystem) (hs : s.Initial)
    (ht : Path (PasswordSystem.step hashToken ctx bcryptMatches) IssuesCurrent s t)
    (hu : Path (PasswordSystem.step hashToken ctx bcryptMatches) IssuesCurrent t u) :
    ∀ token ∈ u.sessions.store.tokens, token.revokedAt = none ∨ t.sessions.store.nextTokenID ≤ token.id →
      t.generation token.userID ≤ u.verified (u.sessions.chain token.id) := by
  have hcurrent := ht.invariant CurrentTokens (fun _ _ _ hs hok hstep => hs.step hok hstep) hs.current
  obtain ⟨hu, hnewer⟩ := hu.invariant (fun u => CurrentTokens u ∧ NewerTokens t u)
    (fun _ _ _ hs hok hstep => ⟨hs.1.step hok hstep, hs.2.step hs.1 hok hstep⟩)
      ⟨hcurrent, newerTokens_refl hcurrent⟩
  rintro token htoken (hnone | hnew)
  · rw [hu.current token htoken hnone]
    exact hnewer.generation _
  · exact hnewer.newer token htoken hnew

/-! ### Two runs -/

/-- A user with a second factor. -/
def totpUser : PasswordSystem where
  sessions := ⟨⟨[⟨1, "ann", "ann@example.com", "#old", "user", "active", true⟩], [], 1⟩, id, []⟩
  pendingTokens := []
  calls := fun _ => none
  generation := fun _ => 0
  verified := fun _ => 0

theorem totpUser_initial : totpUser.Initial := ⟨⟨by decide, by decide⟩, rfl, rfl, rfl, rfl, rfl⟩

def plainAuthStep : PasswordSystem → AuthEvent → Option PasswordSystem :=
  PasswordSystem.step ("#" ++ ·) openContext fun hash password => hash = "#" ++ password

/-- The first factor of a login. -/
def firstFactor (i : Nat) (password : String) : List AuthEvent :=
  [.login i "ann" password, .compare i (midnight 1)]

/-- The second factor, with a pending token for the password `seen`. -/
def secondFactor (i seen : Nat) (tokenHash : String) : List AuthEvent :=
  [.verifyTOTPLogin i (generateTOTPPendingToken 1 (midnight 1) seen) (midnight 1),
   .checkCode i true, .createSession i,
    .issue i tokenHash (midnight 9)]

def passwordChange (i : Nat) : List AuthEvent :=
  [.changePassword i 1 "old" "new", .compareCurrent i, .store i "#new" (midnight 1)]

/-- A login, a change of the password, and a login with the new one. -/
theorem password_change_cuts_off_sample : ∃ t u,
    exec plainAuthStep IssuesCurrent totpUser
    (firstFactor 0 "old" ++ secondFactor 0 0 "#a" ++ passwordChange 1) = some t ∧
      exec plainAuthStep IssuesCurrent t (firstFactor 2 "new" ++ secondFactor 2 1 "#b") = some u ∧
      t.generation 1 = 1 ∧
      (u.sessions.store.tokens.map fun token => (token.id, token.revokedAt.isSome)) =
        [(1, true), (2, false)] ∧
      ∀ token ∈ u.sessions.store.tokens, token.revokedAt = none ∨
        t.sessions.store.nextTokenID ≤ token.id →
        t.generation token.userID ≤ u.verified (u.sessions.chain token.id) := by
  have hrun : (exec plainAuthStep IssuesCurrent totpUser
      (firstFactor 0 "old" ++ secondFactor 0 0 "#a" ++ passwordChange 1)).any
      (fun t => (exec plainAuthStep IssuesCurrent t
        (firstFactor 2 "new" ++ secondFactor 2 1 "#b")).any fun u =>
        t.generation 1 = 1 ∧
          (u.sessions.store.tokens.map fun token => (token.id, token.revokedAt.isSome)) =
            [(1, true), (2, false)]) = true := by
    decide +kernel
  obtain ⟨t, ht, hrun⟩ := (Option.any_eq_true _ _).1 hrun
  obtain ⟨u, hu, hrun⟩ := (Option.any_eq_true _ _).1 hrun
  obtain ⟨hgeneration, htokens⟩ := of_decide_eq_true hrun
  exact ⟨t, u, ht, hu, hgeneration, htokens,
    password_change_cuts_off _ _ _ totpUser t u totpUser_initial (Path.of_exec ht) (Path.of_exec hu)⟩

/-- The pending token of a login with the old password is good for a refresh token after the change. -/
theorem pending_login_survives :
    ∃ t u, Path plainAuthStep Runs.Always totpUser t ∧ Path plainAuthStep Runs.Always t u ∧
    t.calls 1 = none ∧ t.generation 1 = 1 ∧
    ∃ token ∈ u.sessions.store.tokens, token.userID = 1 ∧ token.revokedAt = none ∧
      u.verified (u.sessions.chain token.id) < t.generation 1 := by
  have hrun : (exec plainAuthStep Runs.Always totpUser (firstFactor 0 "old" ++ passwordChange 1)).any
      (fun t => (exec plainAuthStep Runs.Always t (secondFactor 0 0 "#a")).any fun u =>
        t.calls 1 = none ∧ t.generation 1 = 1 ∧
        ∃ token ∈ u.sessions.store.tokens, token.userID = 1 ∧ token.revokedAt = none ∧
          u.verified (u.sessions.chain token.id) < t.generation 1) = true := by
    decide +kernel
  obtain ⟨t, ht, hrun⟩ := (Option.any_eq_true _ _).1 hrun
  obtain ⟨u, hu, hrun⟩ := (Option.any_eq_true _ _).1 hrun
  exact ⟨t, u, Path.of_exec ht, Path.of_exec hu, of_decide_eq_true hrun⟩

end Subdux
