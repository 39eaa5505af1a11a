import Subdux.BackupCodes
import Subdux.Lib.Results
import Subdux.Lib.Rows
/-!
# TOTP setup

`ConfirmSetup` and `generateBackupCodes` of `internal/service/totp.go`, statement by statement:
`SetupRun` says which statement fails and what `totp`, `rand` and `bcrypt` give. No transaction
holds the statements together.

`confirmSetup_atomic_iff`: the setup does all or nothing exactly when it stops at the user's row
or before it, or nothing fails after that (`createCodes_spec` for the loop over the codes).
-/

namespace Subdux

/-- The second factor of a user. -/
structure TotpUser where
  id : Nat
  totpSecret : Option String
  totpEnabled : Bool
  totpTempSecret : Option String
  deriving DecidableEq

/-- The two tables. A backup code gets an id that no code had before. -/
structure TotpTables where
  users : List TotpUser
  backupCodes : List UserBackupCode
  nextID : Nat
  fresh : ∀ bc ∈ backupCodes, bc.id < nextID

inductive SetupOp where
  | firstUser
  | updateUser
  | deleteCodes
  | createCode (i : Nat)
  deriving DecidableEq

/-- What a setup meets: the error of each statement that fails, and the answers of the libraries
in each round. -/
structure SetupRun where
  fails : SetupOp → Option String
  validate : String → String → Bool
  randomBytes : Nat → Except String (List UInt8)
  generateFromPassword : Nat → String → Except String String

/-! ## Statements -/

namespace TotpTables

/-- `Updates` of the user's row. -/
def enableTotp (tables : TotpTables) (userID : Nat) (secret : String) : TotpTables :=
  { tables with
    users := Rows.updateWhere (·.id = userID)
      (fun user => { user with
        totpSecret := some secret, totpEnabled := true, totpTempSecret := none }) tables.users }

def deleteCodes (tables : TotpTables) (userID : Nat) : TotpTables :=
  { tables with
    backupCodes := tables.backupCodes.filter (·.userID ≠ userID)
    fresh := fun bc hbc => tables.fresh bc (List.mem_of_mem_filter hbc) }

def createCode (tables : TotpTables) (userID : Nat) (codeHash : String) : TotpTables :=
  { tables with
    backupCodes := tables.backupCodes ++ [⟨tables.nextID, userID, codeHash⟩]
    nextID := tables.nextID + 1
    fresh := by
      intro bc hbc
      rcases List.mem_append.1 hbc with hbc | hbc
      · exact Nat.lt_succ_of_lt (tables.fresh bc hbc)
      · rw [List.mem_singleton.1 hbc]
        exact Nat.lt_succ_self _ }

/-- What a login asks of the user: the flag and the secret. -/
def secondFactor (tables : TotpTables) (userID : Nat) : Option (Bool × Option String) :=
  (tables.users.find? (·.id = userID)).map fun user => (user.totpEnabled, user.totpSecret)

def codesOf (tables : TotpTables) (userID : Nat) : List UserBackupCode :=
  tables.backupCodes.filter (·.userID = userID)

end TotpTables

/-! ## The setup -/

def hexDigit (n : Nat) : Char := "0123456789abcdef".toList.getD n '0'

/-- `hex.EncodeToString`. -/
def hexEncode (bytes : List UInt8) : String :=
  String.ofList (bytes.flatMap fun b => [hexDigit (b.toNat / 16), hexDigit (b.toNat % 16)])

section Setup
variable (run : SetupRun)

/-- One round of the loop, up to the row: the code and its hash. -/
def newBackupCode (i : Nat) : Except String (String × String) := do
  let b ← run.randomBytes i
  let plainCode := hexEncode b
  let hash ← run.generateFromPassword i plainCode
  match run.fails (.createCode i) with
  | some err => .error err
  | none => .ok (plainCode, hash)

def createCodes (userID : Nat) :
    List Nat → TotpTables → List String → TotpTables × Except String (List String)
  | [], tables, plainCodes => (tables, .ok plainCodes)
  | i :: rounds, tables, plainCodes =>
    match newBackupCode run i with
    | .error err => (tables, .error err)
    | .ok (plainCode, hash) =>
      createCodes userID rounds (tables.createCode userID hash) (plainCodes ++ [plainCode])

/-- `generateBackupCodes`: the error of the deletion is not looked at. -/
def generateBackupCodes (tables : TotpTables) (userID : Nat) :
    TotpTables × Except String (List String) :=
  let tables := if (run.fails .deleteCodes).isSome then tables else tables.deleteCodes userID
  createCodes run userID (List.range 8) tables []

/-- `DB.First(&user, userID)`. -/
def firstUser (tables : TotpTables) (userID : Nat) : Option TotpUser :=
  if (run.fails .firstUser).isSome then none else tables.users.find? (·.id = userID)

/-- `ConfirmSetup`: the tables afterwards, and what it returns. -/
def confirmSetup (tables : TotpTables) (userID : Nat) (code : String) :
    TotpTables × Except String (List String) :=
  match firstUser run tables userID with
  | none => (tables, .error "user not found")
  | some user =>
    match user.totpTempSecret with
    | none => (tables, .error "no pending 2FA setup")
    | some secret =>
      if run.validate code secret = false then (tables, .error "invalid verification code")
      else
        match run.fails .updateUser with
        | some err => (tables, .error err)
        | none => generateBackupCodes run (tables.enableTotp userID secret) userID

/-- The user whose row the setup updates, and the secret. -/
def confirmedUser (tables : TotpTables) (userID : Nat) (code : String) : Option (TotpUser × String) := do
  let user ← firstUser run tables userID
  let secret ← user.totpTempSecret
  if run.validate code secret = false ∨ (run.fails .updateUser).isSome then none else some (user, secret)

/-- All or nothing: an error leaves the flag, the secret and the codes of the user; without one the
flag is set, and the codes of the user are those that are returned. -/
def SetupAtomic (before : TotpTables) (userID : Nat)
    (after : TotpTables × Except String (List String)) : Prop :=
  match after.2 with
  | .error _ =>
    after.1.secondFactor userID = before.secondFactor userID ∧
      after.1.codesOf userID = before.codesOf userID
  | .ok plainCodes => (∃ secret, after.1.secondFactor userID = some (true, secret)) ∧
      List.Forall₂ (fun plainCode bc => ∃ i, run.generateFromPassword i plainCode = .ok bc.codeHash)
        plainCodes (after.1.codesOf userID)

end Setup

/-! ## All or nothing -/

section Atomic
variable {run : SetupRun} {userID : Nat} {code : String}

theorem newBackupCode_hash {i : Nat} {plainCode hash : String}
    (h : newBackupCode run i = .ok (plainCode, hash)) :
    run.generateFromPassword i plainCode = .ok hash := by
  obtain ⟨b, -, h⟩ := Results.bind_eq_ok h
  obtain ⟨hash', hhash, h⟩ := Results.bind_eq_ok h
  split at h
  · cases h
  · cases h
    exact hhash

/-- What the loop does: it adds a row for each round until one fails. -/
structure CodesCreated (run : SetupRun) (userID : Nat) (rounds : List Nat) (tables : TotpTables)
    (plainCodes : List String) (after : TotpTables × Except String (List String))
    (rows : List UserBackupCode) (newCodes : List String) : Prop where
  users : after.1.users = tables.users
  codes : after.1.codesOf userID = tables.codesOf userID ++ rows
  ids : ∀ bc ∈ rows, tables.nextID ≤ bc.id
  hashes : List.Forall₂
    (fun plainCode bc => ∃ i, run.generateFromPassword i plainCode = .ok bc.codeHash) newCodes rows
  result : (after.2 = .ok (plainCodes ++ newCodes) ∧ ∀ i ∈ rounds, ∃ new,
    newBackupCode run i = .ok new) ∨
    ((∃ err, after.2 = .error err) ∧ (∃ i ∈ rounds, ∃ err, newBackupCode run i = .error err) ∧
      (rows = [] ↔ ∃ i ∈ rounds.head?, ∃ err, newBackupCode run i = .error err))

theorem codesOf_createCode (tables : TotpTables) (hash : String) :
    (tables.createCode userID hash).codesOf userID = tables.codesOf userID ++
    [⟨tables.nextID, userID, hash⟩] := by
  simp [TotpTables.codesOf, TotpTables.createCode]

theorem createCodes_spec (run : SetupRun) (userID : Nat) (rounds : List Nat) (tables : TotpTables)
    (plainCodes : List String) :
    ∃ rows newCodes, CodesCreated run userID rounds tables plainCodes
    (createCodes run userID rounds tables plainCodes) rows newCodes := by
  induction rounds generalizing tables plainCodes with
  | nil =>
    exact ⟨[], [], rfl, by simp [createCodes], fun bc hbc => (nomatch hbc), .nil,
      .inl ⟨by simp [createCodes], fun i hi => (nomatch hi)⟩⟩
  | cons i rounds ih =>
    rw [createCodes]
    cases hnew : newBackupCode run i with
    | error err =>
      refine ⟨[], [], rfl, by simp, fun bc hbc => (nomatch hbc), .nil,
        .inr ⟨⟨err, rfl⟩, ⟨i, List.mem_cons_self, err, hnew⟩, ?_⟩⟩
      exact ⟨fun _ => ⟨i, rfl, err, hnew⟩, fun _ => rfl⟩
    | ok new =>
      obtain ⟨plainCode, hash⟩ := new
      obtain ⟨rows, newCodes, h⟩ := ih (tables.createCode userID hash) (plainCodes ++ [plainCode])
      refine ⟨⟨tables.nextID, userID, hash⟩ :: rows, plainCode :: newCodes, h.users, ?_, ?_, ?_, ?_⟩
      · rw [h.codes, codesOf_createCode, List.append_assoc]
        rfl
      · exact List.forall_mem_cons.2 ⟨Nat.le_refl _, fun bc hbc => Nat.le_of_succ_le (h.ids bc hbc)⟩
      · exact .cons ⟨i, newBackupCode_hash hnew⟩ h.hashes
      · rcases h.result with ⟨hok, hall⟩ | ⟨herr, ⟨j, hj, hfails⟩, -⟩
        · refine .inl ⟨?_, List.forall_mem_cons.2 ⟨⟨_, hnew⟩, hall⟩⟩
          simpa using hok
        · refine .inr ⟨herr, ⟨j, List.mem_cons_of_mem i hj, hfails⟩, fun hrows => (nomatch hrows), ?_⟩
          rintro ⟨k, hk, err, hfails⟩
          obtain rfl := Option.some.inj hk
          rw [hnew] at hfails
          cases hfails

theorem secondFactor_enableTotp {tables : TotpTables} {user : TotpUser} {secret : String}
    (h : tables.users.find? (·.id = userID) = some user) :
    (tables.enableTotp userID secret).secondFactor userID = some (true, some secret) := by
  have hid : user.id = userID := by simpa using List.find?_some h
  have hsame : ((fun user : TotpUser => decide (user.id = userID)) ∘ fun user : TotpUser =>
      if decide (user.id = userID) = true then
        { user with totpSecret := some secret, totpEnabled := true, totpTempSecret := none }
      else user) = fun user => decide (user.id = userID) := by
    funext user
    simp only [Function.comp_apply]
    split <;> rfl
  rw [TotpTables.secondFactor, TotpTables.enableTotp, Rows.updateWhere, List.find?_map, hsame, h]
  simp [hid]

theorem codesOf_deleteCodes (tables : TotpTables) : (tables.deleteCodes userID).codesOf userID = [] := by
  simp [TotpTables.codesOf, TotpTables.deleteCodes, List.filter_filter]

/-- After the user's row: the loop runs to its end over codes that are gone, or its first round
fails and nothing was different before. -/
def CodesInStep (run : SetupRun) (tables : TotpTables) (userID : Nat) (user : TotpUser)
    (secret : String) : Prop :=
  ((∀ i < 8, ∃ new, newBackupCode run i = .ok new) ∧
    (run.fails .deleteCodes = none ∨ tables.codesOf userID = [])) ∨
  ((∃ err, newBackupCode run 0 = .error err) ∧ user.totpEnabled = true ∧ user.totpSecret = some secret ∧
    ((run.fails .deleteCodes).isSome = true ∨ tables.codesOf userID = []))

theorem generateBackupCodes_atomic_iff {tables : TotpTables} {user : TotpUser} {secret : String}
    (h : tables.users.find? (·.id = userID) = some user) :
    SetupAtomic run tables userID (generateBackupCodes run (tables.enableTotp userID secret) userID) ↔
      CodesInStep run tables userID user secret := by
  unfold generateBackupCodes
  dsimp only
  generalize hdeleted : (if (run.fails .deleteCodes).isSome = true then tables.enableTotp userID secret
    else (tables.enableTotp userID secret).deleteCodes userID) = deleted
  have husers : deleted.secondFactor userID = some (true, some secret) := by
    rw [← secondFactor_enableTotp h, ← hdeleted]
    split <;> rfl
  have hnext : deleted.nextID = tables.nextID := by
    rw [← hdeleted]
    split <;> rfl
  have hcodes : deleted.codesOf userID = if (run.fails .deleteCodes).isSome = true
      then tables.codesOf userID else [] := by
    rw [← hdeleted]
    split
    · rfl
    · exact codesOf_deleteCodes _
  -- eight rounds run on the tables left by the DELETE, whether it failed or not
  obtain ⟨rows, newCodes, hspec⟩ := createCodes_spec run userID (List.range 8) deleted []
  have hbefore : tables.secondFactor userID = some (user.totpEnabled, user.totpSecret) := by
    rw [TotpTables.secondFactor, h]
    rfl
  have hafter : (createCodes run userID (List.range 8) deleted []).1.secondFactor userID = some
      (true, some secret) := by
    rw [TotpTables.secondFactor, hspec.users]
    exact husers
  have hfirst : (∃ i ∈ (List.range 8).head?, ∃ err, newBackupCode run i = .error err) ↔
      ∃ err, newBackupCode run 0 = .error err := by
    simp [List.range_succ_eq_map]
  have hrounds : (∀ i ∈ List.range 8, ∃ new, newBackupCode run i = .ok new) ↔
      ∀ i < 8, ∃ new, newBackupCode run i = .ok new := by
    simp only [List.mem_range]
  unfold SetupAtomic CodesInStep
  rcases hspec.result with ⟨hok, hall⟩ | ⟨⟨err, herr⟩, ⟨i, hi, err', hfails⟩, hrows⟩
  · -- every code was created
    have hnot : ¬ ∃ err, newBackupCode run 0 = .error err := by
      rintro ⟨err, hfails⟩
      obtain ⟨new, hnew⟩ := hall 0 (by simp)
      rw [hnew] at hfails
      cases hfails
    rw [hok, hspec.codes, hcodes]
    have hlength := hspec.hashes.length_eq
    constructor
    · rintro ⟨-, hstored⟩
      have hstored := hstored.length_eq
      refine .inl ⟨hrounds.1 hall, ?_⟩
      cases hdelete : run.fails .deleteCodes with
      | none => exact .inl rfl
      | some err =>
        rw [hdelete, Option.isSome_some, if_pos rfl, List.length_append, List.length_append,
          List.length_nil] at hstored
        -- the old codes are still there: eight codes in all only if there were none
        exact .inr (List.eq_nil_of_length_eq_zero (by omega))
    · rintro (⟨-, hgone⟩ | ⟨hfails, -⟩)
      · refine ⟨⟨_, hafter⟩, ?_⟩
        have hnone : (if (run.fails .deleteCodes).isSome = true then tables.codesOf userID
            else []) = [] := by
          rcases hgone with hgone | hgone
          · rw [hgone]
            rfl
          · rw [hgone, ite_self]
        rw [hnone]
        exact hspec.hashes
      · exact absurd hfails hnot
  · -- a round failed
    have hnot : ¬ ∀ i < 8, ∃ new, newBackupCode run i = .ok new := by
      intro hall
      obtain ⟨new, hnew⟩ := hall i (List.mem_range.1 hi)
      rw [hnew] at hfails
      cases hfails
    -- a new row takes a fresh id, so the new rows are the old ones only when there are none
    have hids : rows = tables.codesOf userID → rows = [] := by
      intro hsame
      refine List.eq_nil_iff_forall_not_mem.2 fun bc hbc => ?_
      have hlow := tables.fresh bc (List.mem_of_mem_filter (hsame ▸ hbc))
      have hhigh := hspec.ids bc hbc
      omega
    rw [herr, hafter, hbefore, hspec.codes, hcodes]
    rw [hfirst] at hrows
    constructor
    · rintro ⟨hfactor, hstored⟩
      obtain ⟨henabled, hsecret⟩ := Prod.mk.inj (Option.some.inj hfactor)
      cases hdelete : run.fails .deleteCodes with
      | none =>
        rw [hdelete, Option.isSome_none, if_neg Bool.false_ne_true, List.nil_append] at hstored
        exact .inr ⟨hrows.1 (hids hstored), henabled.symm, hsecret.symm,
          .inr (hstored.symm.trans (hids hstored))⟩
      | some err =>
        rw [hdelete, Option.isSome_some, if_pos rfl] at hstored
        exact .inr ⟨hrows.1 (List.append_right_eq_self.1 hstored), henabled.symm, hsecret.symm, .inl rfl⟩
    · rintro (⟨hall, -⟩ | ⟨hfails, henabled, hsecret, hdelete⟩)
      · exact absurd hall hnot
      · rw [henabled, hsecret, hrows.2 hfails, List.append_nil]
        refine ⟨rfl, ?_⟩
        rcases hdelete with hdelete | hnone
        · rw [if_pos hdelete]
        · rw [hnone, ite_self]

/-- A setup does all or nothing exactly when it does not come to update the user, or what it does
after that is in step. -/
theorem confirmSetup_atomic_iff (run : SetupRun) (tables : TotpTables) (userID : Nat) (code : String) :
    SetupAtomic run tables userID (confirmSetup run tables userID code) ↔
      ∀ user secret, confirmedUser run tables userID code = some (user, secret) →
        CodesInStep run tables userID user secret := by
  have hnothing : ∀ err, SetupAtomic run tables userID (tables, .error err) := fun err => ⟨rfl, rfl⟩
  unfold confirmSetup confirmedUser
  cases hfound : firstUser run tables userID with
  | none => exact ⟨fun _ _ _ h => (nomatch h), fun _ => hnothing _⟩
  | some user =>
    dsimp only [Option.bind_eq_bind, Option.bind_some]
    cases user.totpTempSecret with
    | none => exact ⟨fun _ _ _ h => (nomatch h), fun _ => hnothing _⟩
    | some secret =>
      dsimp only [Option.bind_some]
      by_cases hvalid : run.validate code secret = false
      · rw [if_pos hvalid, if_pos (.inl hvalid)]
        exact ⟨fun _ _ _ h => (nomatch h), fun _ => hnothing _⟩
      · rw [if_neg hvalid]
        cases run.fails .updateUser with
        | some err =>
          rw [if_pos (.inr rfl)]
          exact ⟨fun _ _ _ h => (nomatch h), fun _ => hnothing _⟩
        | none =>
          have hfind : tables.users.find? (·.id = userID) = some user := by
            unfold firstUser at hfound
            split at hfound
            · cases hfound
            · exact hfound
          rw [if_neg (by simpa using hvalid)]
          dsimp only
          rw [generateBackupCodes_atomic_iff hfind]
          constructor
          · intro h _ _ heq
            obtain ⟨rfl, rfl⟩ := Prod.mk.inj (Option.some.inj heq)
            exact h
          · exact fun h => h user secret rfl

/-! ### A failing row -/

/-- The row of the fourth code cannot be written. -/
def sampleSetup : SetupRun where
  fails op := if op = .createCode 3 then some "disk full" else none
  validate _ _ := true
  randomBytes i := .ok [0, 0, 0, UInt8.ofNat i]
  generateFromPassword _ plainCode := .ok plainCode

def sampleTables : TotpTables := ⟨[⟨1, none, false, some "JBSWY3DP"⟩], [], 1, by simp⟩

/-- The second factor is on although the setup failed. -/
theorem confirmSetup_half_done :
    ¬ ∀ (run : SetupRun) (tables : TotpTables) (userID : Nat) (code : String),
      SetupAtomic run tables userID (confirmSetup run tables userID code) := by
  intro h
  have hsetup : confirmSetup sampleSetup sampleTables 1 "123456" =
      ((confirmSetup sampleSetup sampleTables 1 "123456").1, .error "disk full") := rfl
  have hatomic := h sampleSetup sampleTables 1 "123456"
  rw [hsetup] at hatomic
  have hon := hatomic.1
  revert hon
  decide

end Atomic

end Subdux
