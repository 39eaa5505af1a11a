import Mathlib.Data.List.Nodup
import Subdux.Time
import Subdux.Lib.Runs
/-!
# Backup codes

`VerifyBackupCode` of `internal/service/totp.go` in the handler that logs in with it,
`VerifyTOTPLogin` of `internal/api/auth_totp.go`. The handler asks `VerifyLogin` first, then
reads the user's backup codes, compares them, deletes the one that matches in a statement of
its own whose result it does not look at, and creates a session. Requests overlap between any
two of these steps. The checks of `bcrypt` and `totp` are parameters, and so is the user that
the pending token names.
-/

namespace Subdux
open Runs (Path exec)

structure UserBackupCode where
  id : Nat
  userID : Nat
  codeHash : String
  deriving DecidableEq

/-- What a request does next. A session that a backup code led to keeps the code's id. -/
inductive TotpPhase where
  | verifyingLogin
  | finding
  | deleting (bc : UserBackupCode)
  | creatingSession (backupCode : Option Nat)
  | loggedIn (backupCode : Option Nat)
  | refused
  deriving DecidableEq

structure TotpLogin where
  userID : Nat
  code : String
  phase : TotpPhase
  deriving DecidableEq

structure TotpSystem where
  backupCodes : List UserBackupCode
  totpSecret : Nat → Option String
  logins : Nat → Option TotpLogin

inductive TotpEvent where
  | request (i userID : Nat) (totpToken code : String)
  | verifyLogin (i : Nat) (now : Time) (fails : Bool)
  | find (i : Nat) (fails : Bool)
  | delete (i : Nat) (fails : Bool)
  | createSession (i : Nat) (fails : Bool)

namespace TotpSystem

def goOn (s : TotpSystem) (i : Nat) (login : TotpLogin) (phase : TotpPhase) : TotpSystem :=
  { s with logins := Runs.set s.logins i (some { login with phase := phase }) }

section Step
variable (bcryptMatches : String → String → Bool) (totpValidate : String → String → Time → Bool)

/-- The first of the user's codes whose hash the code matches. -/
def matchingCode (backupCodes : List UserBackupCode) (login : TotpLogin) : Option UserBackupCode :=
  (backupCodes.filter (·.userID = login.userID)).find? fun bc => bcryptMatches bc.codeHash login.code

def step (s : TotpSystem) : TotpEvent → Option TotpSystem
  | .request i userID totpToken code =>
    match s.logins i with
    | some _ => none
    | none =>
      some (s.goOn i ⟨userID, code, .refused⟩
        (if totpToken = "" ∨ code = "" then .refused else .verifyingLogin))
  | .verifyLogin i now fails =>
    match s.logins i with
    | some ⟨userID, code, .verifyingLogin⟩ =>
      let valid := !fails && (s.totpSecret userID).any fun secret => totpValidate code secret now
      some (s.goOn i ⟨userID, code, .verifyingLogin⟩ (if valid then .creatingSession none else .finding))
    | _ => none
  | .find i fails =>
    match s.logins i with
    | some ⟨userID, code, .finding⟩ =>
      let found :=
        if fails then none else matchingCode bcryptMatches s.backupCodes ⟨userID, code, .finding⟩
      some (s.goOn i ⟨userID, code, .finding⟩ (match found with
        | none => .refused
        | some bc => .deleting bc))
    | _ => none
  | .delete i fails =>
    match s.logins i with
    | some ⟨userID, code, .deleting bc⟩ =>
      let backupCodes := if fails then s.backupCodes else s.backupCodes.filter (·.id ≠ bc.id)
      some ({ s with backupCodes := backupCodes }.goOn i ⟨userID, code, .deleting bc⟩
        (.creatingSession (some bc.id)))
    | _ => none
  | .createSession i fails =>
    match s.logins i with
    | some ⟨userID, code, .creatingSession backupCode⟩ =>
      some (s.goOn i ⟨userID, code, .creatingSession backupCode⟩
        (if fails then .refused else .loggedIn backupCode))
    | _ => none

end Step
end TotpSystem

/-- No request has been made. -/
def TotpSystem.initial (backupCodes : List UserBackupCode) (totpSecret : Nat → Option String) :
    TotpSystem :=
  ⟨backupCodes, totpSecret, fun _ => none⟩

/-- Each backup code led to at most one login. -/
def SingleUse (s : TotpSystem) : Prop :=
  ∀ i j a b id, s.logins i = some a → s.logins j = some b → a.phase = .loggedIn (some id) →
    b.phase = .loggedIn (some id) → i = j

def TotpPhase.deletes : TotpPhase → Option UserBackupCode
  | .deleting bc => some bc
  | _ => none

/-- A request that deletes a backup code finds it stored, and its statement does not fail. -/
def DeletesStored (s : TotpSystem) : TotpEvent → Prop
  | .delete i fails => fails = false ∧ ∀ bc ∈ (s.logins i).bind (·.phase.deletes), bc ∈ s.backupCodes
  | _ => True

instance (s : TotpSystem) (e : TotpEvent) : Decidable (DeletesStored s e) := by
  cases e <;> unfold DeletesStored <;> infer_instance

/-! ## What every state keeps -/

section Invariant
variable {bcryptMatches : String → String → Bool} {totpValidate : String → String → Time → Bool}
  {s t : TotpSystem}
  {backupCodes : List UserBackupCode} {totpSecret : Nat → Option String} {i j id : Nat}
    {login : TotpLogin} {phase : TotpPhase}

/-- The backup code that a request has been let in with. -/
def TotpPhase.used : TotpPhase → Option Nat
  | .creatingSession backupCode | .loggedIn backupCode => backupCode
  | _ => none

def TotpSystem.used (s : TotpSystem) (i : Nat) : Option Nat := (s.logins i).bind (·.phase.used)

structure BackupCodeInv (s : TotpSystem) : Prop where
  ids : (s.backupCodes.map (·.id)).Nodup
  gone : ∀ i id, s.used i = some id → ∀ bc ∈ s.backupCodes, bc.id ≠ id
  once : ∀ i j id, s.used i = some id → s.used j = some id → i = j

theorem used_goOn_self : (s.goOn i login phase).used i = phase.used := by
  simp [TotpSystem.used, TotpSystem.goOn]

theorem used_goOn_of_ne (h : j ≠ i) : (s.goOn i login phase).used j = s.used j := by
  simp [TotpSystem.used, TotpSystem.goOn, Runs.set_of_ne _ _ h]

/-- A request that goes on with the code it has been let in with, or without one. -/
theorem BackupCodeInv.goOn (h : BackupCodeInv s)
    (hphase : ∀ id, phase.used = some id → s.used i = some id) :
    BackupCodeInv (s.goOn i login phase) := by
  have hused : ∀ j id, (s.goOn i login phase).used j = some id → s.used j = some id := by
    intro j id hj
    by_cases hsame : j = i
    · subst hsame
      rw [used_goOn_self] at hj
      exact hphase id hj
    · rwa [used_goOn_of_ne hsame] at hj
  exact ⟨h.ids, fun j id hj => h.gone j id (hused j id hj), fun j k id hj hk =>
    h.once j k id (hused j id hj) (hused k id hk)⟩

/-- A stored code is deleted, and its request goes on with it. -/
theorem BackupCodeInv.delete (h : BackupCodeInv s) {bc : UserBackupCode} (hbc : bc ∈ s.backupCodes) :
    BackupCodeInv ({ s with backupCodes := s.backupCodes.filter (·.id ≠ bc.id) }.goOn i login
      (.creatingSession (some bc.id))) := by
  have hunused : ∀ j, s.used j ≠ some bc.id := fun j hj => h.gone j bc.id hj bc hbc rfl
  constructor
  case ids => exact h.ids.sublist (List.filter_sublist.map _)
  case gone =>
    intro j id hj x hx
    obtain ⟨hmem, hne⟩ := List.mem_filter.1 hx
    by_cases hsame : j = i
    · subst hsame
      rw [used_goOn_self] at hj
      obtain rfl := Option.some.inj hj
      simpa using hne
    · rw [used_goOn_of_ne hsame] at hj
      exact h.gone j id hj x hmem
  case once =>
    intro j k id hj hk
    by_cases hji : j = i <;> by_cases hki : k = i
    · rw [hji, hki]
    · subst hji
      rw [used_goOn_self] at hj
      rw [used_goOn_of_ne hki, ← hj] at hk
      exact absurd hk (hunused k)
    · subst hki
      rw [used_goOn_self] at hk
      rw [used_goOn_of_ne hji, ← hk] at hj
      exact absurd hj (hunused j)
    · rw [used_goOn_of_ne hji] at hj
      rw [used_goOn_of_ne hki] at hk
      exact h.once j k id hj hk

theorem BackupCodeInv.step (e : TotpEvent) (h : BackupCodeInv s) (hok : DeletesStored s e)
    (hstep : s.step bcryptMatches totpValidate e = some t) : BackupCodeInv t := by
  cases e with
  | request i userID totpToken code =>
    simp only [TotpSystem.step] at hstep
    split at hstep
    · cases hstep
    · obtain rfl := Option.some.inj hstep
      apply h.goOn
      intro id hid
      split at hid <;> cases hid
  | verifyLogin i now fails =>
    simp only [TotpSystem.step] at hstep
    split at hstep
    · obtain rfl := Option.some.inj hstep
      apply h.goOn
      intro id hid
      split at hid <;> cases hid
    · cases hstep
  | find i fails =>
    simp only [TotpSystem.step] at hstep
    split at hstep
    · obtain rfl := Option.some.inj hstep
      apply h.goOn
      intro id hid
      split at hid <;> cases hid
    · cases hstep
  | delete i fails =>
    obtain ⟨rfl, hstored⟩ := hok
    simp only [TotpSystem.step] at hstep
    split at hstep
    · rename_i bc hlogin
      obtain rfl := Option.some.inj hstep
      exact h.delete (hstored bc (by simp [hlogin, TotpPhase.deletes]))
    · cases hstep
  | createSession i fails =>
    simp only [TotpSystem.step] at hstep
    split at hstep
    · rename_i backupCode hlogin
      obtain rfl := Option.some.inj hstep
      apply h.goOn
      intro id hid
      have hused : s.used i = backupCode := by simp [TotpSystem.used, hlogin, TotpPhase.used]
      split at hid
      · cases hid
      · rw [hused]
        exact hid
    · cases hstep

/-- Backup codes are single use in every run in which a request that deletes one finds it stored. -/
theorem backup_codes_single_use (bcryptMatches : String → String → Bool)
    (totpValidate : String → String → Time → Bool) (backupCodes : List UserBackupCode)
    (totpSecret : Nat → Option String) (hids : (backupCodes.map (·.id)).Nodup) (s : TotpSystem)
    (h : Path (TotpSystem.step bcryptMatches totpValidate) DeletesStored
      (.initial backupCodes totpSecret) s) : SingleUse s := by
  have hinit : BackupCodeInv (.initial backupCodes totpSecret) :=
    ⟨hids, fun _ _ h => (by cases h), fun _ _ _ h => (by cases h)⟩
  have hinv := h.invariant BackupCodeInv (fun _ e _ hinv hok hstep => hinv.step e hok hstep) hinit
  intro i j a b id ha hb hloggedIn hloggedIn'
  apply hinv.once i j id
  · simp [TotpSystem.used, ha, hloggedIn, TotpPhase.used]
  · simp [TotpSystem.used, hb, hloggedIn', TotpPhase.used]

end Invariant

/-! ## Two requests with one code -/

def sampleBackupCodes : List UserBackupCode := [⟨1, 7, "hash:a1b2c3d4"⟩, ⟨2, 7, "hash:0f0f0f0f"⟩]

def sampleMatches (codeHash code : String) : Bool := codeHash = "hash:" ++ code

/-- Both requests read the codes before either deletes the one they match. -/
def overlappingLogins : List TotpEvent :=
  [.request 0 7 "pending" "a1b2c3d4", .request 1 7 "pending" "a1b2c3d4",
   .verifyLogin 0 ⟨0, 0⟩ false, .verifyLogin 1 ⟨0, 0⟩ false, .find 0 false, .find 1 false,
     .delete 0 false, .delete 1 false, .createSession 0 false, .createSession 1 false]

theorem backup_code_used_twice :
    ¬ ∀ s, Path (TotpSystem.step sampleMatches fun _ _ _ => false) Runs.Always
    (.initial sampleBackupCodes fun _ => none) s →
      SingleUse s := by
  intro hall
  have hrun : (exec (TotpSystem.step sampleMatches fun _ _ _ => false) Runs.Always
      (.initial sampleBackupCodes fun _ => none)
      overlappingLogins).any (fun s => (s.logins 0).map (·.phase) = some (.loggedIn (some 1)) ∧
        (s.logins 1).map (·.phase) = some (.loggedIn (some 1))) = true := by
    decide +kernel
  obtain ⟨s, hs, hboth⟩ := (Option.any_eq_true _ _).1 hrun
  obtain ⟨hfirst, hsecond⟩ := of_decide_eq_true hboth
  obtain ⟨a, ha, hphase⟩ := Option.map_eq_some_iff.1 hfirst
  obtain ⟨b, hb, hphase'⟩ := Option.map_eq_some_iff.1 hsecond
  exact absurd (hall s (Path.of_exec hs) 0 1 a b 1 ha hb hphase hphase') (by decide)

/-- The second request reads the codes after the first has deleted its own. -/
def consecutiveLogins : List TotpEvent :=
  [.request 0 7 "pending" "a1b2c3d4", .request 1 7 "pending" "0f0f0f0f",
   .verifyLogin 0 ⟨0, 0⟩ false, .verifyLogin 1 ⟨0, 0⟩ false, .find 0 false, .delete 0 false,
     .find 1 false, .delete 1 false, .createSession 0 false, .createSession 1 false]

theorem backup_codes_single_use_sample :
    ∃ s : TotpSystem, s.backupCodes = [] ∧ (s.logins 0).map (·.phase) = some (.loggedIn (some 1)) ∧
      (s.logins 1).map (·.phase) = some (.loggedIn (some 2)) ∧ SingleUse s := by
  have hrun : (exec (TotpSystem.step sampleMatches fun _ _ _ => false) DeletesStored
      (.initial sampleBackupCodes fun _ => none)
      consecutiveLogins).any
        (fun s => s.backupCodes = [] ∧ (s.logins 0).map (·.phase) = some (.loggedIn (some 1)) ∧
        (s.logins 1).map (·.phase) = some (.loggedIn (some 2))) = true := by
    decide +kernel
  obtain ⟨s, hs, hboth⟩ := (Option.any_eq_true _ _).1 hrun
  obtain ⟨hcodes, hfirst, hsecond⟩ := of_decide_eq_true hboth
  exact ⟨s, hcodes, hfirst, hsecond, backup_codes_single_use sampleMatches
    (fun _ _ _ => false) sampleBackupCodes (fun _ => none)
    (by decide) s (Path.of_exec hs)⟩

end Subdux
