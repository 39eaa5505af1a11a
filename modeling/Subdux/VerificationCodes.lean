import Subdux.Accounts
/-!
# Verification codes

`issueVerificationCode` and `consumeVerificationCode` of `internal/service/auth_email.go`,
and what else writes to `email_verification_codes`. A call of `consumeVerificationCode`
reads a row, compares, and writes back what it decided in a third step, so calls can
overlap (`CodeSystem`). `compared` lists the codes that wrong guesses were compared
with, `successes` those that a call accepted. The comparison of `bcrypt` is a parameter.
-/

namespace Subdux
open GoStrings Rows Runs

structure EmailVerificationCode where
  id : Nat
  userID : Option Nat
  email : String
  purpose : String
  codeHash : String
  failedAttempts : Nat
  expiresAt : Time
  consumedAt : Option Time
  createdAt : Time
  deriving DecidableEq

def verificationCodeLength : Nat := 6
def verificationCodeTTL : Int := 10 * 60 * nsPerSecond
def verificationCodeMaxFailures : Nat := 5

/-! ## Calls -/

/-- What a call of `consumeVerificationCode` does next. -/
inductive CallPhase where
  | selecting
  /-- The row has no attempts left: it is to be marked consumed. -/
  | closing (id : Nat)
  | comparing (row : EmailVerificationCode)
  | marking (id : Nat)
  | counting (row : EmailVerificationCode)
  | done (result : Except AccountError Unit)

structure CodeCall where
  userID : Option Nat
  email : String
  purpose : String
  code : String
  now : Time
  phase : CallPhase

def isVerificationCode (code : String) : Bool :=
  code.utf8ByteSize = verificationCodeLength && code.toList.all fun ch => '0' ≤ ch && ch ≤ '9'

def startCall (userID : Option Nat) (email purpose code : String) (now : Time) : CodeCall :=
  let trimmedCode := trimSpace code
  ⟨userID, email, purpose, trimmedCode, now,
    if isVerificationCode trimmedCode then .selecting else .done (.error .verificationCodeInvalid)⟩

/-- The condition of the call's query. -/
def CodeCall.selects (call : CodeCall) (row : EmailVerificationCode) : Bool :=
  row.email = call.email && row.purpose = call.purpose && row.consumedAt.isNone &&
    row.expiresAt.after call.now &&
    row.userID = call.userID

/-- `Order("created_at DESC").First`, for rows in the order of their ids. -/
def latest (codes : List EmailVerificationCode) : Option EmailVerificationCode :=
  codes.foldl
    (fun best row => match best with
      | none => some row
      | some b => if b.createdAt.before row.createdAt then some row else some b) none

/-- The query, and what the call does with its row. -/
def CodeCall.select (call : CodeCall) (codes : List EmailVerificationCode) : CallPhase :=
  match latest (codes.filter call.selects) with
  | none => .done (.error .verificationCodeInvalid)
  | some row =>
    if verificationCodeMaxFailures ≤ row.failedAttempts then .closing row.id else .comparing row

def markConsumed (id : Nat) (now : Time) (codes : List EmailVerificationCode) :
    List EmailVerificationCode :=
  updateWhere (·.id = id) ({ · with consumedAt := some now }) codes

/-- The update after a wrong guess at `read`. -/
def countFailure (read : EmailVerificationCode) (now : Time) (codes : List EmailVerificationCode) :
    List EmailVerificationCode :=
  let nextAttempts := read.failedAttempts + 1
  updateWhere (·.id = read.id)
    (fun row =>
      if verificationCodeMaxFailures ≤ nextAttempts then
        { row with failedAttempts := nextAttempts, consumedAt := some now }
      else { row with failedAttempts := nextAttempts }) codes

/-- What a wrong guess at `read` returns. -/
def wrongGuess (read : EmailVerificationCode) : Except AccountError Unit :=
  .error (if verificationCodeMaxFailures ≤ read.failedAttempts + 1
    then .verificationCodeTooManyAttempts else .verificationCodeInvalid)

/-! ## The system -/

structure CodeSystem where
  codes : List EmailVerificationCode
  nextID : Nat
  calls : List CodeCall
  compared : List Nat
  successes : List Nat

inductive CodeEvent where
  | start (userID : Option Nat) (email purpose code : String) (now : Time)
  /-- The next step of call `i`. -/
  | run (i : Nat)
  /-- The statement of call `i` fails. -/
  | fail (i : Nat)
  /-- `Create` of `issueVerificationCode`. -/
  | issue (userID : Option Nat) (email purpose codeHash : String) (now : Time)
  /-- `Delete` of `issueVerificationCode`, for a code that could not be sent. -/
  | unsent (id : Nat)
  | cleanup (email purpose : String) (threshold : Time)
  /-- What `Register`, `ResetPassword` and `ConfirmEmailChange` do with the codes left;
  `Register` does not look at the user. -/
  | consumeAll (userID : Option Nat) (email purpose : String) (now : Time)
  | deleteUser (userID : Nat)

def CodeSystem.setPhase (s : CodeSystem) (i : Nat) (call : CodeCall) (phase : CallPhase) : CodeSystem :=
  { s with calls := s.calls.set i { call with phase := phase } }

section System
variable (bcryptMatches : String → String → Bool)

def CodeSystem.runCall (s : CodeSystem) (i : Nat) (call : CodeCall) : Option CodeSystem :=
  match call.phase with
  | .selecting => some (s.setPhase i call (call.select s.codes))
  | .closing id =>
    some ({ s with codes := markConsumed id call.now s.codes }.setPhase i call
      (.done (.error .verificationCodeTooManyAttempts)))
  | .comparing row =>
    if bcryptMatches row.codeHash call.code then some (s.setPhase i call (.marking row.id))
    else some ({ s with compared := s.compared ++ [row.id] }.setPhase i call (.counting row))
  | .marking id =>
    some
      ({ s with
        codes := markConsumed id call.now s.codes, successes := s.successes ++ [id] }.setPhase i
          call (.done (.ok ())))
  | .counting row =>
    some ({ s with codes := countFailure row call.now s.codes }.setPhase i call (.done (wrongGuess row)))
  | .done _ => none

/-- The query's and the mark's errors are returned, the others ignored. -/
def CodeSystem.failCall (s : CodeSystem) (i : Nat) (call : CodeCall) : Option CodeSystem :=
  match call.phase with
  | .selecting | .marking _ => some (s.setPhase i call (.done (.error .database)))
  | .closing _ => some (s.setPhase i call (.done (.error .verificationCodeTooManyAttempts)))
  | .counting row => some (s.setPhase i call (.done (wrongGuess row)))
  | .comparing _ | .done _ => none

def CodeSystem.step (s : CodeSystem) : CodeEvent → Option CodeSystem
  | .start userID email purpose code now =>
    some { s with calls := s.calls ++ [startCall userID email purpose code now] }
  | .run i => s.calls[i]?.bind (s.runCall bcryptMatches i)
  | .fail i => s.calls[i]?.bind (s.failCall i)
  | .issue userID email purpose codeHash now =>
    some { s with
      codes :=
        s.codes ++ [⟨s.nextID, userID, email, purpose, codeHash, 0, now.add verificationCodeTTL,
          none, now⟩]
      nextID := s.nextID + 1 }
  | .unsent id => some { s with codes := s.codes.filter (·.id ≠ id) }
  | .cleanup email purpose threshold =>
    some { s with codes := s.codes.filter fun row =>
      !(row.email = email && row.purpose = purpose &&
        (row.consumedAt.isSome || row.expiresAt.before threshold)) }
  | .consumeAll userID email purpose now =>
    some
      { s with
        codes := updateWhere (fun row => (userID.isNone || row.userID = userID) && row.email = email &&
      row.purpose = purpose && row.consumedAt.isNone) ({ · with consumedAt := some now }) s.codes }
  | .deleteUser userID => some { s with codes := s.codes.filter (·.userID ≠ some userID) }

/-- The row a call has read and not written yet, and whether its guess is right. -/
def CodeCall.holds (call : CodeCall) : Option (Nat × Bool) :=
  match call.phase with
  | .comparing row => some (row.id, bcryptMatches row.codeHash call.code)
  | .marking id => some (id, true)
  | .counting row => some (row.id, false)
  | _ => none

/-- No call reads a row that another one with the same verdict has read and not written
yet, and no count of a wrong guess is lost. -/
def CallsApart (s : CodeSystem) : CodeEvent → Prop
  | .run i =>
    match s.calls[i]? with
    | some call =>
      match call.phase, call.select s.codes with
      | .selecting, .comparing row =>
        ∀ other ∈ s.calls, other.holds bcryptMatches ≠ some
          (row.id, bcryptMatches row.codeHash call.code)
      | _, _ => True
    | none => True
  | .fail i =>
    match s.calls[i]?.map CodeCall.phase with
    | some (.counting _) => False
    | _ => True
  | _ => True

end System

/-- No call is under way, and nothing was counted in this run yet. -/
structure CodeSystem.Initial (s : CodeSystem) : Prop where
  ids : (s.codes.map (·.id)).Nodup
  fresh : ∀ row ∈ s.codes, row.id < s.nextID
  calls : s.calls = []
  compared : s.compared = []
  successes : s.successes = []

/-! ## What the calls know -/

section Invariant
variable (bcryptMatches : String → String → Bool)

/-- The row a wrong guess has read, and how many of its comparisons are not counted yet. -/
def CodeCall.wrong (call : CodeCall) : Option (EmailVerificationCode × Nat) :=
  match call.phase with
  | .comparing row => if bcryptMatches row.codeHash call.code then none else some (row, 0)
  | .counting row => some (row, 1)
  | _ => none

/-- What a wrong guess read is still so. -/
structure StillRead (s : CodeSystem) (read : EmailVerificationCode) (uncounted : Nat) : Prop where
  known : read.id < s.nextID
  open_ : read.failedAttempts < verificationCodeMaxFailures
  count : s.compared.count read.id ≤ read.failedAttempts + uncounted
  same : ∀ row ∈ s.codes, row.id = read.id → row.failedAttempts = read.failedAttempts

structure CodeInv (s : CodeSystem) : Prop where
  ids : (s.codes.map (·.id)).Nodup
  fresh : ∀ row ∈ s.codes, row.id < s.nextID
  unused : ∀ id, s.nextID ≤ id → s.compared.count id = 0 ∧ s.successes.count id = 0
  bound : ∀ id, s.compared.count id ≤ verificationCodeMaxFailures
  once : ∀ id, s.successes.count id ≤ 1
  exclusive : ∀ (i j : Nat) (p q : CodeCall), s.calls[i]? = some p → s.calls[j]? = some q → i ≠ j →
    ∀ key, p.holds bcryptMatches = some key → q.holds bcryptMatches ≠ some key
  right : ∀ call ∈ s.calls, ∀ id, call.holds bcryptMatches = some (id, true) → id < s.nextID ∧
    s.successes.count id = 0
  wrong : ∀ call ∈ s.calls, ∀ read uncounted, call.wrong bcryptMatches = some (read, uncounted) →
    StillRead s read uncounted
  counted : ∀ row ∈ s.codes, (∀ call ∈ s.calls, call.holds bcryptMatches ≠ some (row.id, false)) →
    s.compared.count row.id ≤ row.failedAttempts
  won : ∀ row ∈ s.codes, s.successes.count row.id ≠ 0 → row.consumedAt.isSome

end Invariant

section Lemmas
variable {bcryptMatches : String → String → Bool} {s t : CodeSystem} {call next : CodeCall} {i : Nat}

theorem latest_mem {codes : List EmailVerificationCode} {row : EmailVerificationCode}
    (h : latest codes = some row) : row ∈ codes := by
  have hall : ∀ row, latest codes = some row → row ∈ codes := by
    unfold latest
    refine List.foldlRecOn codes _ (motive := fun best => ∀ row, best = some row → row ∈ codes)
      (by simp) ?_
    intro best hbest x hx row hrow
    split at hrow
    · cases hrow
      exact hx
    · split at hrow
      · cases hrow
        exact hx
      · cases hrow
        exact hbest _ rfl
  exact hall row h

theorem StillRead.congr {read : EmailVerificationCode} {uncounted : Nat}
    (h : StillRead s read uncounted) (hcodes : t.codes = s.codes) (hnext : t.nextID = s.nextID)
    (hcompared : t.compared = s.compared) : StillRead t read uncounted :=
  ⟨hnext ▸ h.known, h.open_, hcompared ▸ h.count, hcodes ▸ h.same⟩

/-- A wrong guess holds its row. -/
theorem holds_of_wrong {read : EmailVerificationCode} {uncounted : Nat}
    (h : call.wrong bcryptMatches = some (read, uncounted)) :
    call.holds bcryptMatches = some (read.id, false) := by
  unfold CodeCall.wrong at h
  unfold CodeCall.holds
  split at h
  · rename_i row hphase
    split at h
    · cases h
    · rename_i hwrong
      cases h
      simp [hphase, hwrong]
  · rename_i row hphase
    cases h
    simp [hphase]
  · cases h

/-! ### The rows change -/

/-- Rows that kept their ids and counts and stayed consumed where they were. -/
theorem CodeInv.rows (h : CodeInv bcryptMatches s) {codes : List EmailVerificationCode}
    (hids : (codes.map (·.id)).Nodup)
    (hfrom : ∀ row ∈ codes, ∃ old ∈ s.codes, old.id = row.id ∧ old.failedAttempts = row.failedAttempts ∧
      (old.consumedAt.isSome → row.consumedAt.isSome)) :
        CodeInv bcryptMatches { s with codes := codes } where
  ids := hids
  fresh := by
    intro row hrow
    obtain ⟨old, hold, hid, -, -⟩ := hfrom row hrow
    rw [← hid]
    exact h.fresh old hold
  unused := h.unused
  bound := h.bound
  once := h.once
  exclusive := h.exclusive
  right := h.right
  wrong := by
    intro call hcall read uncounted hwrong
    obtain ⟨hknown, hopen, hcount, hsame⟩ := h.wrong call hcall read uncounted hwrong
    refine ⟨hknown, hopen, hcount, ?_⟩
    intro row hrow hid
    obtain ⟨old, hold, holdid, hattempts, -⟩ := hfrom row hrow
    rw [← hattempts]
    exact hsame old hold (holdid.trans hid)
  counted := by
    intro row hrow hfree
    obtain ⟨old, hold, hid, hattempts, -⟩ := hfrom row hrow
    rw [← hid] at hfree ⊢
    rw [← hattempts]
    exact h.counted old hold hfree
  won := by
    intro row hrow hsuccess
    obtain ⟨old, hold, hid, -, hconsumed⟩ := hfrom row hrow
    rw [← hid] at hsuccess
    exact hconsumed (h.won old hold hsuccess)

theorem CodeInv.filter (h : CodeInv bcryptMatches s) (p : EmailVerificationCode → Bool) :
    CodeInv bcryptMatches { s with codes := s.codes.filter p } :=
  h.rows (h.ids.sublist (List.filter_sublist.map _)) fun row hrow =>
    ⟨row, (List.mem_filter.1 hrow).1, rfl, rfl, id⟩

theorem CodeInv.consume (h : CodeInv bcryptMatches s) (p : EmailVerificationCode → Bool) (now : Time) :
    CodeInv bcryptMatches
    { s with codes := updateWhere p ({ · with consumedAt := some now }) s.codes } := by
  have hids : (updateWhere p (fun row => { row with consumedAt := some now }) s.codes).map
    (·.id) = s.codes.map (·.id) :=
    map_updateWhere EmailVerificationCode.id fun _ => rfl
  refine h.rows (hids ▸ h.ids) ?_
  intro row hrow
  rcases mem_updateWhere_cases hrow with ⟨hrow, -⟩ | ⟨old, hold, -, rfl⟩
  · exact ⟨row, hrow, rfl, rfl, id⟩
  · exact ⟨old, hold, rfl, rfl, fun _ => rfl⟩

/-- A new code. -/
theorem CodeInv.issue (h : CodeInv bcryptMatches s) (userID : Option Nat)
    (email purpose codeHash : String) (expires now : Time) :
    CodeInv bcryptMatches { s with
      codes := s.codes ++ [⟨s.nextID, userID, email, purpose, codeHash, 0, expires, none, now⟩]
      nextID := s.nextID + 1 } where
  ids := by
    rw [List.map_append]
    refine List.nodup_append.2 ⟨h.ids, by simp, ?_⟩
    intro a ha b hb
    obtain ⟨row, hrow, rfl⟩ := List.mem_map.1 ha
    obtain rfl : b = s.nextID := by simpa using hb
    exact (h.fresh row hrow).ne
  fresh := by
    intro row hrow
    rcases List.mem_append.1 hrow with hrow | hrow
    · exact Nat.lt_succ_of_lt (h.fresh row hrow)
    · obtain rfl := List.mem_singleton.1 hrow
      exact Nat.lt_succ_self _
  unused := fun id hid => h.unused id (Nat.le_of_succ_le hid)
  bound := h.bound
  once := h.once
  exclusive := h.exclusive
  right :=
    fun call hcall id hholds =>
      ⟨Nat.lt_succ_of_lt (h.right call hcall id hholds).1, (h.right call hcall id hholds).2⟩
  wrong := by
    intro call hcall read uncounted hwrong
    obtain ⟨hknown, hopen, hcount, hsame⟩ := h.wrong call hcall read uncounted hwrong
    refine ⟨Nat.lt_succ_of_lt hknown, hopen, hcount, ?_⟩
    intro row hrow hid
    rcases List.mem_append.1 hrow with hrow | hrow
    · exact hsame row hrow hid
    · obtain rfl := List.mem_singleton.1 hrow
      exact absurd hid hknown.ne'
  counted := by
    intro row hrow hfree
    rcases List.mem_append.1 hrow with hrow | hrow
    · exact h.counted row hrow hfree
    · obtain rfl := List.mem_singleton.1 hrow
      exact (h.unused _ le_rfl).1.le
  won := by
    intro row hrow hsuccess
    rcases List.mem_append.1 hrow with hrow | hrow
    · exact h.won row hrow hsuccess
    · obtain rfl := List.mem_singleton.1 hrow
      exact absurd (h.unused _ le_rfl).2 hsuccess

/-! ### A call moves on -/

theorem mem_calls_set {q : CodeCall} (hq : q ∈ s.calls.set i next) :
    q = next ∨ ∃ j, j ≠ i ∧ s.calls[j]? = some q := by
  obtain ⟨j, hj⟩ := List.mem_iff_getElem?.1 hq
  rw [List.getElem?_set] at hj
  split at hj
  · split at hj
    · cases hj
      exact .inl rfl
    · cases hj
  · rename_i hne
    exact .inr ⟨j, fun heq => hne heq.symm, hj⟩

theorem calls_set_self (hi : s.calls[i]? = some call) : next ∈ s.calls.set i next := by
  obtain ⟨hlt, -⟩ := List.getElem?_eq_some_iff.1 hi
  exact List.mem_set hlt next

theorem calls_set_other {j : Nat} {q : CodeCall} (hne : j ≠ i) (hj : s.calls[j]? = some q) :
    q ∈ s.calls.set i next := by
  refine List.mem_iff_getElem?.2 ⟨j, ?_⟩
  rw [List.getElem?_set_ne hne.symm]
  exact hj

theorem CodeInv.exclusive_set (h : CodeInv bcryptMatches s)
    (hexcl : ∀ key, next.holds bcryptMatches = some key → ∀ j q, j ≠ i → s.calls[j]? = some q →
      q.holds bcryptMatches ≠ some key) :
    ∀ (j k : Nat) (p q : CodeCall), (s.calls.set i next)[j]? = some p →
    (s.calls.set i next)[k]? = some q → j ≠ k →
      ∀ key, p.holds bcryptMatches = some key → q.holds bcryptMatches ≠ some key := by
  intro j k p q hp hq hjk key hpkey
  rw [List.getElem?_set] at hp hq
  split at hp <;> split at hq
  · omega
  · rename_i hj hk
    split at hp
    · cases hp
      exact hexcl key hpkey k q (fun heq => hk heq.symm) hq
    · cases hp
  · rename_i hj hk
    split at hq
    · cases hq
      intro hqkey
      exact hexcl key hqkey j p (fun heq => hj heq.symm) hp hpkey
    · cases hq
  · exact h.exclusive j k p q hp hq hjk key hpkey

/-- A call holds nothing that another one holds, and gives up a row that it did not
compare a wrong guess with. -/
theorem CodeInv.setCall (h : CodeInv bcryptMatches s) (hi : s.calls[i]? = some call)
    (hexcl : ∀ key, next.holds bcryptMatches = some key → ∀ j q, j ≠ i → s.calls[j]? = some q →
      q.holds bcryptMatches ≠ some key)
    (hright : ∀ id, next.holds bcryptMatches = some (id, true) → id < s.nextID ∧
      s.successes.count id = 0)
    (hwrong : ∀ read uncounted, next.wrong bcryptMatches = some (read, uncounted) →
      StillRead s read uncounted)
    (hfree : ∀ id, call.holds bcryptMatches = some (id, false) → next.holds bcryptMatches = some
      (id, false)) :
    CodeInv bcryptMatches { s with calls := s.calls.set i next } where
  ids := h.ids
  fresh := h.fresh
  unused := h.unused
  bound := h.bound
  once := h.once
  exclusive := h.exclusive_set hexcl
  right := by
    intro q hq id hid
    rcases mem_calls_set hq with rfl | ⟨j, -, hj⟩
    · exact hright id hid
    · exact h.right q (List.mem_of_getElem? hj) id hid
  wrong := by
    intro q hq read uncounted hread
    rcases mem_calls_set hq with rfl | ⟨j, -, hj⟩
    · exact (hwrong read uncounted hread).congr rfl rfl rfl
    · exact (h.wrong q (List.mem_of_getElem? hj) read uncounted hread).congr rfl rfl rfl
  counted := by
    intro row hrow hnone
    refine h.counted row hrow ?_
    intro q hq hqholds
    obtain ⟨j, hj⟩ := List.mem_iff_getElem?.1 hq
    by_cases hji : j = i
    · subst hji
      obtain rfl : q = call := Option.some.inj (hj.symm.trans hi)
      exact hnone next (calls_set_self hi) (hfree _ hqholds)
    · exact hnone q (calls_set_other hji hj) hqholds
  won := h.won

/-- A call that ends without having compared a wrong guess. -/
theorem CodeInv.finish (h : CodeInv bcryptMatches s) (hi : s.calls[i]? = some call)
    (hfree : ∀ id, call.holds bcryptMatches ≠ some (id, false)) (result : Except AccountError Unit) :
    CodeInv bcryptMatches (s.setPhase i call (.done result)) :=
  h.setCall hi (fun _ hkey => by cases hkey) (fun _ hid => by cases hid)
    (fun _ _ hread => by cases hread)
    (fun id hid => absurd hid (hfree id))

/-- The row of another call is not the one that call `i` holds. -/
theorem CodeInv.other_row (h : CodeInv bcryptMatches s) (hi : s.calls[i]? = some call) {id : Nat}
    (hholds : call.holds bcryptMatches = some (id, false)) {j : Nat} {q : CodeCall}
    (hj : s.calls[j]? = some q) (hne : j ≠ i) {read : EmailVerificationCode} {uncounted : Nat}
    (hread : q.wrong bcryptMatches = some (read, uncounted)) : read.id ≠ id := by
  rintro rfl
  exact h.exclusive i j call q hi hj hne.symm _ hholds (holds_of_wrong hread)

/-- The comparison with a wrong guess, which call `i` is about to count. -/
theorem CodeInv.compare (h : CodeInv bcryptMatches s) (hi : s.calls[i]? = some call)
    {row : EmailVerificationCode} (hphase : call.phase = .counting row) (hread : StillRead s row 0) :
    CodeInv bcryptMatches { s with compared := s.compared ++ [row.id] } := by
  have hholds : call.holds bcryptMatches = some (row.id, false) := by simp [CodeCall.holds, hphase]
  have hsame : ∀ id, id ≠ row.id → (s.compared ++ [row.id]).count id = s.compared.count id := by
    intro id hid
    rw [List.count_append, List.count_singleton, if_neg (by simpa using hid.symm), Nat.add_zero]
  have hself : (s.compared ++ [row.id]).count row.id = s.compared.count row.id + 1 := by
    rw [List.count_append, List.count_singleton_self]
  obtain ⟨hknown, hopen, hcount, hrows⟩ := hread
  refine ⟨h.ids, h.fresh, ?_, ?_, h.once, h.exclusive, h.right, ?_, ?_, h.won⟩
  · intro id hid
    exact ⟨(hsame id (hknown.trans_le hid).ne').trans (h.unused id hid).1, (h.unused id hid).2⟩
  · intro id
    by_cases hid : id = row.id
    · subst hid
      rw [hself]
      omega
    · rw [hsame id hid]
      exact h.bound id
  · intro q hq read uncounted hwrong
    obtain ⟨j, hj⟩ := List.mem_iff_getElem?.1 hq
    by_cases hji : j = i
    · subst hji
      obtain rfl : q = call := Option.some.inj (hj.symm.trans hi)
      simp only [CodeCall.wrong, hphase, Option.some.injEq, Prod.mk.injEq] at hwrong
      obtain ⟨rfl, rfl⟩ := hwrong
      exact ⟨hknown, hopen, by rw [hself]; omega, hrows⟩
    · obtain ⟨hknown', hopen', hcount', hrows'⟩ := h.wrong q hq read uncounted hwrong
      exact ⟨hknown', hopen',
        by rw [hsame _ (h.other_row hi hholds hj hji hwrong)]; exact hcount', hrows'⟩
  · intro other hother hnone
    have hid : other.id ≠ row.id := by
      intro heq
      refine hnone call (List.mem_of_getElem? hi) ?_
      rw [heq]
      exact hholds
    rw [hsame _ hid]
    exact h.counted other hother hnone

/-- A success, for a row that no call with the right code holds any more. -/
theorem CodeInv.succeed (h : CodeInv bcryptMatches s) {id : Nat} (hknown : id < s.nextID)
    (hnone : s.successes.count id = 0)
    (hfree : ∀ q ∈ s.calls, q.holds bcryptMatches ≠ some (id, true))
    (hconsumed : ∀ row ∈ s.codes, row.id = id → row.consumedAt.isSome) :
    CodeInv bcryptMatches { s with successes := s.successes ++ [id] } := by
  have hsame : ∀ other, other ≠ id → (s.successes ++ [id]).count other = s.successes.count other := by
    intro other hother
    rw [List.count_append, List.count_singleton, if_neg (by simpa using hother.symm), Nat.add_zero]
  refine ⟨h.ids, h.fresh, ?_, h.bound, ?_, h.exclusive, ?_,
    fun q hq read uncounted hread => (h.wrong q hq read uncounted hread).congr rfl rfl rfl,
      h.counted, ?_⟩
  · intro other hother
    exact ⟨(h.unused other hother).1, (hsame other (hknown.trans_le hother).ne').trans
      (h.unused other hother).2⟩
  · intro other
    by_cases hother : other = id
    · subst hother
      rw [List.count_append, List.count_singleton_self]
      omega
    · rw [hsame other hother]
      exact h.once other
  · intro q hq other hholds
    obtain ⟨hlt, hzero⟩ := h.right q hq other hholds
    refine ⟨hlt, (hsame other ?_).trans hzero⟩
    rintro rfl
    exact hfree q hq hholds
  · intro row hrow hcount
    by_cases hid : row.id = id
    · exact hconsumed row hrow hid
    · rw [hsame _ hid] at hcount
      exact h.won row hrow hcount

/-- The count of a wrong guess is written. -/
theorem CodeInv.count (h : CodeInv bcryptMatches s) (hi : s.calls[i]? = some call)
    {read : EmailVerificationCode} (hphase : call.phase = .counting read)
    (result : Except AccountError Unit) :
    CodeInv bcryptMatches
    ({ s with codes := countFailure read call.now s.codes }.setPhase i call (.done result)) := by
  have hholds : call.holds bcryptMatches = some (read.id, false) := by simp [CodeCall.holds, hphase]
  obtain ⟨hknown, hopen, hcount, hrows⟩ :=
    h.wrong call (List.mem_of_getElem? hi) read 1 (by simp [CodeCall.wrong, hphase])
  -- A row after the update: another one, or the one read with one more failure.
  have hcases : ∀ row ∈ countFailure read call.now s.codes,
      (row ∈ s.codes ∧ row.id ≠ read.id) ∨
        ∃ old ∈ s.codes, old.id = row.id ∧ row.id = read.id ∧
          row.failedAttempts = read.failedAttempts + 1 ∧
          (old.consumedAt.isSome → row.consumedAt.isSome) := by
    intro row hrow
    rcases mem_updateWhere_cases hrow with ⟨hrow, hid⟩ | ⟨old, hold, hid, rfl⟩
    · exact .inl ⟨hrow, of_decide_eq_false hid⟩
    · have hid := of_decide_eq_true hid
      refine .inr ⟨old, hold, ?_⟩
      split <;> simp [hid]
  have hids : (countFailure read call.now s.codes).map (·.id) = s.codes.map (·.id) := by
    refine map_updateWhere EmailVerificationCode.id ?_
    intro row
    split <;> rfl
  have hfinished : ∀ q ∈ (s.calls.set i { call with phase := .done result }),
    q.holds bcryptMatches = none ∨
      ∃ j, j ≠ i ∧ s.calls[j]? = some q := by
    intro q hq
    rcases mem_calls_set hq with rfl | hq
    · exact .inl rfl
    · exact .inr hq
  refine ⟨hids ▸ h.ids, ?_, h.unused, h.bound, h.once,
    h.exclusive_set (fun _ hkey => by cases hkey), ?_, ?_, ?_, ?_⟩
  · intro row hrow
    rcases hcases row hrow with ⟨hrow, -⟩ | ⟨old, hold, hid, -⟩
    · exact h.fresh row hrow
    · rw [← hid]
      exact h.fresh old hold
  · intro q hq id hid
    rcases hfinished q hq with hnone | ⟨j, -, hj⟩
    · rw [hnone] at hid
      cases hid
    · exact h.right q (List.mem_of_getElem? hj) id hid
  · intro q hq other uncounted hread
    rcases hfinished q hq with hnone | ⟨j, hji, hj⟩
    · rw [holds_of_wrong hread] at hnone
      cases hnone
    · have hne := h.other_row hi hholds hj hji hread
      obtain ⟨hknown', hopen', hcount', hrows'⟩ :=
        h.wrong q (List.mem_of_getElem? hj) other uncounted hread
      refine ⟨hknown', hopen', hcount', ?_⟩
      intro row hrow hid
      rcases hcases row hrow with ⟨hrow, -⟩ | ⟨old, -, -, hread', -⟩
      · exact hrows' row hrow hid
      · exact absurd (hid.symm.trans hread') hne
  · intro row hrow hnone
    rcases hcases row hrow with ⟨hrow, hne⟩ | ⟨old, -, -, hid, hattempts, -⟩
    · refine h.counted row hrow ?_
      intro q hq hqholds
      obtain ⟨j, hj⟩ := List.mem_iff_getElem?.1 hq
      by_cases hji : j = i
      · subst hji
        obtain rfl : q = call := Option.some.inj (hj.symm.trans hi)
        rw [hholds, Option.some.injEq, Prod.mk.injEq] at hqholds
        exact hne hqholds.1.symm
      · exact hnone q (calls_set_other hji hj) hqholds
    · rw [hid, hattempts]
      exact hcount
  · intro row hrow hsuccess
    rcases hcases row hrow with ⟨hrow, -⟩ | ⟨old, hold, hid, -, -, hconsumed⟩
    · exact h.won row hrow hsuccess
    · rw [← hid] at hsuccess
      exact hconsumed (h.won old hold hsuccess)

end Lemmas

/-! ## Steps -/

section Steps
variable {bcryptMatches : String → String → Bool} {s t : CodeSystem} {call : CodeCall} {i : Nat}

theorem select_cases (call : CodeCall) (codes : List EmailVerificationCode) :
    call.select codes = .done (.error .verificationCodeInvalid) ∨
    (∃ id, call.select codes = .closing id) ∨
      ∃ row ∈ codes, row.consumedAt = none ∧ row.failedAttempts < verificationCodeMaxFailures ∧
        call.select codes = .comparing row := by
  unfold CodeCall.select
  split
  · exact .inl rfl
  · rename_i row hrow
    split
    · exact .inr (.inl ⟨_, rfl⟩)
    · rename_i hopen
      obtain ⟨hmem, hselects⟩ := List.mem_filter.1 (latest_mem hrow)
      simp only [CodeCall.selects, Bool.and_eq_true, Option.isNone_iff_eq_none] at hselects
      exact .inr (.inr ⟨row, hmem, hselects.1.1.2, Nat.lt_of_not_le hopen, rfl⟩)

/-- The query, when no other call with the same verdict is at work on its row. -/
theorem CodeInv.select (h : CodeInv bcryptMatches s) (hi : s.calls[i]? = some call)
    (hphase : call.phase = .selecting) (hapart : ∀ row, call.select s.codes = .comparing row →
      ∀ other ∈ s.calls, other.holds bcryptMatches ≠ some
        (row.id, bcryptMatches row.codeHash call.code)) :
    CodeInv bcryptMatches (s.setPhase i call (call.select s.codes)) := by
  have hold : call.holds bcryptMatches = none := by simp [CodeCall.holds, hphase]
  rcases select_cases call s.codes with hselect | ⟨id, hselect⟩ | ⟨row, hmem, hopen, hattempts, hselect⟩
  · rw [hselect]
    exact h.finish hi (fun id => by rw [hold]; simp) _
  · rw [hselect]
    exact h.setCall hi (fun _ hkey => by cases hkey) (fun _ hid => by cases hid)
      (fun _ _ hread => by cases hread)
      (fun id hid => by rw [hold] at hid; cases hid)
  · have hfree := hapart row hselect
    rw [hselect]
    refine h.setCall hi ?_ ?_ ?_ (fun id hid => by rw [hold] at hid; cases hid)
    · intro key hkey j q _ hj
      cases hkey
      exact hfree q (List.mem_of_getElem? hj)
    · intro id hid
      simp only [CodeCall.holds, Option.some.injEq, Prod.mk.injEq] at hid
      obtain ⟨rfl, -⟩ := hid
      refine ⟨h.fresh row hmem, ?_⟩
      by_contra hsuccess
      have := h.won row hmem hsuccess
      rw [hopen] at this
      cases this
    · intro read uncounted hread
      simp only [CodeCall.wrong] at hread
      split at hread
      · cases hread
      · rename_i hwrong
        cases hread
        rw [Bool.eq_false_of_not_eq_true hwrong] at hfree
        refine ⟨h.fresh row hmem, hattempts, h.counted row hmem hfree, ?_⟩
        intro other hother hid
        rw [eq_of_key h.ids hother hmem hid]

/-- A call that has not read anything. -/
theorem CodeInv.start (h : CodeInv bcryptMatches s) (hnone : call.holds bcryptMatches = none) :
    CodeInv bcryptMatches { s with calls := s.calls ++ [call] } := by
  have hget : ∀ (j : Nat) (p : CodeCall), (s.calls ++ [call])[j]? = some p → p = call ∨
      s.calls[j]? = some p := by
    intro j p hp
    rw [List.getElem?_append] at hp
    split at hp
    · exact .inr hp
    · exact .inl (List.mem_singleton.1 (List.mem_of_getElem? hp))
  have hmem : ∀ q ∈ s.calls ++ [call], q = call ∨ q ∈ s.calls := by
    intro q hq
    rcases List.mem_append.1 hq with hq | hq
    · exact .inr hq
    · exact .inl (List.mem_singleton.1 hq)
  refine ⟨h.ids, h.fresh, h.unused, h.bound, h.once, ?_, ?_, ?_, ?_, h.won⟩
  · intro j k p q hp hq hjk key hpkey
    rcases hget j p hp with rfl | hp
    · rw [hnone] at hpkey
      cases hpkey
    · rcases hget k q hq with rfl | hq
      · rw [hnone]
        simp
      · exact h.exclusive j k p q hp hq hjk key hpkey
  · intro q hq id hid
    rcases hmem q hq with rfl | hq
    · rw [hnone] at hid
      cases hid
    · exact h.right q hq id hid
  · intro q hq read uncounted hread
    rcases hmem q hq with rfl | hq
    · rw [holds_of_wrong hread] at hnone
      cases hnone
    · exact (h.wrong q hq read uncounted hread).congr rfl rfl rfl
  · intro row hrow hfree
    exact h.counted row hrow fun q hq => hfree q (List.mem_append_left _ hq)

theorem CodeInv.runCall (h : CodeInv bcryptMatches s) (hi : s.calls[i]? = some call)
    (hapart : CallsApart bcryptMatches s (.run i))
    (hrun : s.runCall bcryptMatches i call = some t) : CodeInv bcryptMatches t := by
  unfold CodeSystem.runCall at hrun
  split at hrun
  · rename_i hphase
    cases hrun
    refine h.select hi hphase ?_
    intro row hrow
    simp only [CallsApart, hi, hphase, hrow] at hapart
    exact hapart
  · rename_i id hphase
    cases hrun
    have hold : call.holds bcryptMatches = none := by simp [CodeCall.holds, hphase]
    exact (h.consume (·.id = id) call.now).finish hi (fun id => by rw [hold]; simp) _
  · rename_i row hphase
    split at hrun
    · rename_i hright
      cases hrun
      -- the right code: from here the call holds its row
      have hold : call.holds bcryptMatches = some (row.id, true) := by
        simp [CodeCall.holds, hphase, hright]
      refine h.setCall hi ?_ ?_ (fun _ _ hread => by cases hread)
        (fun id hid => by rw [hold] at hid; cases hid)
      · intro key hkey j q hji hj
        exact h.exclusive i j call q hi hj hji.symm key (hold.trans hkey)
      · intro id hid
        exact h.right call (List.mem_of_getElem? hi) id (hold.trans hid)
    · rename_i hwrong
      cases hrun
      have hold : call.holds bcryptMatches = some (row.id, false) := by
        simp [CodeCall.holds, hphase, hwrong]
      -- a wrong code is still to be counted: until then nobody else reads the row
      have hread :=
        h.wrong call (List.mem_of_getElem? hi) row 0 (by simp [CodeCall.wrong, hphase, hwrong])
      have hset : CodeInv bcryptMatches (s.setPhase i call (.counting row)) := by
        refine h.setCall hi ?_ (fun _ hid => by cases hid) ?_ (fun id hid => hold.symm.trans hid)
        · intro key hkey j q hji hj
          exact h.exclusive i j call q hi hj hji.symm key (hold.trans hkey)
        · intro read uncounted hwrong
          cases hwrong
          exact ⟨hread.known, hread.open_, Nat.le_succ_of_le hread.count, hread.same⟩
      have hi' : (s.setPhase i call (.counting row)).calls[i]? = some
          { call with phase := .counting row } := by
        obtain ⟨hlt, -⟩ := List.getElem?_eq_some_iff.1 hi
        exact List.getElem?_set_self hlt
      exact hset.compare hi' rfl (hread.congr rfl rfl rfl)
  · rename_i id hphase
    cases hrun
    have hold : call.holds bcryptMatches = some (id, true) := by simp [CodeCall.holds, hphase]
    obtain ⟨hknown, hnone⟩ := h.right call (List.mem_of_getElem? hi) id hold
    have hfinished := (h.consume (·.id = id) call.now).finish hi (fun id => by rw [hold]; simp) (.ok ())
    refine hfinished.succeed hknown hnone ?_ ?_
    · intro q hq
      rcases mem_calls_set hq with rfl | ⟨j, hji, hj⟩
      · simp [CodeCall.holds]
      · exact h.exclusive i j call q hi hj hji.symm _ hold
    · intro row hrow hid
      rcases mem_updateWhere_cases hrow with ⟨-, hne⟩ | ⟨old, -, -, rfl⟩
      · exact absurd hid (of_decide_eq_false hne)
      · rfl
  · rename_i row hphase
    cases hrun
    exact h.count hi hphase _
  · cases hrun

theorem CodeInv.failCall (h : CodeInv bcryptMatches s) (hi : s.calls[i]? = some call)
    (hapart : CallsApart bcryptMatches s (.fail i)) (hfail : s.failCall i call = some t) :
    CodeInv bcryptMatches t := by
  unfold CodeSystem.failCall at hfail
  split at hfail
  · rename_i hphase
    cases hfail
    exact h.finish hi (fun id => by simp [CodeCall.holds, hphase]) _
  · rename_i id hphase
    cases hfail
    exact h.finish hi (fun id => by simp [CodeCall.holds, hphase]) _
  · rename_i id hphase
    cases hfail
    exact h.finish hi (fun id => by simp [CodeCall.holds, hphase]) _
  · rename_i row hphase
    simp only [CallsApart, hi, Option.map_some, hphase] at hapart
  · cases hfail
  · cases hfail

theorem step_codeInv {e : CodeEvent} (h : CodeInv bcryptMatches s)
    (hapart : CallsApart bcryptMatches s e) (hstep : s.step bcryptMatches e = some t) :
    CodeInv bcryptMatches t := by
  cases e with
  | start userID email purpose code now =>
    cases hstep
    refine h.start ?_
    by_cases hcode : isVerificationCode (trimSpace code) = true <;> simp
      [startCall, CodeCall.holds, hcode]
  | run i =>
    obtain ⟨call, hi, hrun⟩ := Option.bind_eq_some_iff.1 hstep
    exact h.runCall hi hapart hrun
  | fail i =>
    obtain ⟨call, hi, hfail⟩ := Option.bind_eq_some_iff.1 hstep
    exact h.failCall hi hapart hfail
  | issue userID email purpose codeHash now =>
    cases hstep
    exact h.issue ..
  | unsent id =>
    cases hstep
    exact h.filter _
  | cleanup email purpose threshold =>
    cases hstep
    exact h.filter _
  | consumeAll userID email purpose now =>
    cases hstep
    exact h.consume _ now
  | deleteUser userID =>
    cases hstep
    exact h.filter _

end Steps

/-! ## What a run keeps -/

section Runs
variable {bcryptMatches : String → String → Bool} {s t : CodeSystem}

theorem CodeSystem.Initial.inv (h : s.Initial) : CodeInv bcryptMatches s := by
  obtain ⟨hids, hfresh, hcalls, hcompared, hsuccesses⟩ := h
  exact ⟨hids, hfresh, by simp [hcompared, hsuccesses], by simp [hcompared], by simp [hsuccesses],
    by simp [hcalls], by simp [hcalls],
    by simp [hcalls], by simp [hcompared], by simp [hsuccesses]⟩

/-- A code is accepted at most once, and compared with at most the maximum of wrong guesses. -/
def CodesBounded (s : CodeSystem) : Prop :=
  ∀ id, s.successes.count id ≤ 1 ∧ s.compared.count id ≤ verificationCodeMaxFailures

theorem codes_bounded (bcryptMatches : String → String → Bool) (s t : CodeSystem) (h : s.Initial)
    (hpath : Path (CodeSystem.step bcryptMatches) (CallsApart bcryptMatches) s t) : CodesBounded t := by
  have hinv : CodeInv bcryptMatches t :=
    hpath.invariant (CodeInv bcryptMatches)
      (fun _ _ _ h hapart hstep => step_codeInv h hapart hstep) h.inv
  exact fun id => ⟨hinv.once id, hinv.bound id⟩

end Runs

/-! ### Runs of two and of six calls -/

instance (bcryptMatches : String → String → Bool) (s : CodeSystem) (e : CodeEvent) :
    Decidable (CallsApart bcryptMatches s e) := by
  cases e <;> unfold CallsApart <;> repeat' split
  all_goals infer_instance

def noCodes : CodeSystem := ⟨[], 1, [], [], []⟩

/-- The code `123456` is issued to a new email, and calls with the given codes start. -/
def startCalls (codes : List String) : List CodeEvent :=
  .issue none "ann@example.com" "register" "123456" (midnight 0) ::
    codes.map fun code => .start none "ann@example.com" "register" code (midnight 0)

/-- The next step of each of the first `n` calls. -/
def runAll (n : Nat) : List CodeEvent := (List.range n).map .run

/-- Two calls read the code before either marks it; six read it before any is counted. -/
theorem codes_unbounded :
    (¬ ∀ (bcryptMatches : String → String → Bool) (s t : CodeSystem), s.Initial →
      Path (CodeSystem.step bcryptMatches) Always s t →
      ∀ id, t.successes.count id ≤ 1) ∧
    ¬ ∀ (bcryptMatches : String → String → Bool) (s t : CodeSystem), s.Initial →
    Path (CodeSystem.step bcryptMatches) Always s t →
      ∀ id, t.compared.count id ≤ verificationCodeMaxFailures := by
  have hinitial : noCodes.Initial := ⟨by simp [noCodes], by simp [noCodes], rfl, rfl, rfl⟩
  constructor
  · intro h
    have hrun : (exec (CodeSystem.step (· = ·)) Always noCodes
        (startCalls ["123456", "123456"] ++ runAll 2 ++ runAll 2 ++ runAll 2)).any
          (fun t => t.successes.count 1 = 2) = true := by
      decide +kernel
    obtain ⟨t, ht, htwo⟩ := (Option.any_eq_true _ _).1 hrun
    have hle := h _ _ t hinitial (Path.of_exec ht) 1
    rw [of_decide_eq_true htwo] at hle
    omega
  · intro h
    have hrun : (exec (CodeSystem.step (· = ·)) Always noCodes
        (startCalls (List.replicate 6 "000000") ++ runAll 6 ++ runAll 6)).any
          (fun t => t.compared.count 1 = 6) = true := by
      decide +kernel
    obtain ⟨t, ht, hsix⟩ := (Option.any_eq_true _ _).1 hrun
    have hle := h _ _ t hinitial (Path.of_exec ht) 1
    rw [of_decide_eq_true hsix] at hle
    exact absurd hle (by decide)

/-- A wrong and a right guess that overlap, and the code once more. -/
theorem codes_bounded_sample :
    ∃ t, exec (CodeSystem.step (· = ·)) (CallsApart (· = ·)) noCodes
        (startCalls ["000000", "123456", "123456"] ++ runAll 2 ++ runAll 2 ++ runAll 2 ++
          [.run 2]) = some t ∧
      t.successes = [1] ∧ t.compared = [1] ∧ CodesBounded t := by
  have hrun : (exec (CodeSystem.step (· = ·)) (CallsApart (· = ·)) noCodes
      (startCalls ["000000", "123456", "123456"] ++ runAll 2 ++ runAll 2 ++ runAll 2 ++ [.run 2])).any
        (fun t => t.successes = [1] ∧ t.compared = [1]) = true := by
    decide +kernel
  obtain ⟨t, ht, hlogs⟩ := (Option.any_eq_true _ _).1 hrun
  obtain ⟨hsuccesses, hcompared⟩ := of_decide_eq_true hlogs
  exact ⟨t, ht, hsuccesses, hcompared,
    codes_bounded _ noCodes t ⟨by simp [noCodes], by simp [noCodes], rfl, rfl, rfl⟩ (Path.of_exec ht)⟩

end Subdux
