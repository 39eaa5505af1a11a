import Subdux.Lib.Runs
import Subdux.McpWrites
/-!
# MCP write calls over whole runs

Any number of calls, each in three steps: the checks before the transaction, the
transaction, and what follows it. Transactions are serialised; the steps of calls
interleave, and other requests may change everything but the idempotency keys.

The invariant says that the keys are the records of the mutations committed so far
(`WriteInv.recorded`), no two for one key of a user. `idempotentWrite_exactlyOnce`
follows by looking a call's key up among them.
-/

namespace Subdux
open JsonText Runs

/-! ## Runs of calls -/

inductive WritePhase (E : Type) where
  | idle
  | checked (key fingerprint : String) (auditEnabled : Bool)
  | settled (result : McpToolResult) (postCommit : Option E)
  | done (reply : Except McpError McpToolResult)

/-- A committed mutation: the call, and its outcome. -/
structure WriteCommit (E : Type) where
  call : Nat
  outcome : McpWriteOutcome E

/-- The store and the calls, with the commits and the post-commit effects so far. -/
structure WriteSystem (S E : Type) where
  store : WriteStore S
  phase : Nat → WritePhase E
  commits : List (WriteCommit E)
  effects : List (Nat × E)

inductive WriteEvent (S : Type) where
  | begin (i : Nat) (fault : Option String)
  | transact (i : Nat) (f : Faults)
  | finish (i : Nat)
  | other (tables : S) (settings : List (String × String)) (auditEvents : List AuditEvent)

section Runs
variable {S E : Type} (sha256 : List Char → String) (calls : Nat → WriteCall S E)

def WriteSystem.move (s : WriteSystem S E) (i : Nat) (p : WritePhase E) : WriteSystem S E :=
  { s with phase := Function.update s.phase i p }

/-- The state after a transaction of call `i` has committed. -/
def WriteSystem.commit (s : WriteSystem S E) (i : Nat) (done : Settled E) (store : WriteStore S) :
    WriteSystem S E :=
  { s.move i (.settled done.result done.postCommit) with
    store := store
    commits := match done with
      | .replayed _ => s.commits
      | .executed outcome => s.commits ++ [⟨i, outcome⟩] }

def WriteSystem.step (s : WriteSystem S E) : WriteEvent S → Option (WriteSystem S E)
  | .begin i fault =>
    match s.phase i with
    | .idle =>
      match beginWrite sha256 (calls i) fault s.store.settings with
      | .error err => some (s.move i (.done (.error err)))
      | .ok (key, fingerprint, auditEnabled) => some (s.move i (.checked key fingerprint auditEnabled))
    | _ => none
  | .transact i f =>
    match s.phase i with
    | .checked key fingerprint auditEnabled =>
      match transact (calls i) key fingerprint auditEnabled f s.store with
      | .error err => some (s.move i (.done (mapMCPWriteError err)))
      | .ok (done, store) => some (s.commit i done store)
    | _ => none
  | .finish i =>
    match s.phase i with
    | .settled result postCommit =>
      some { s.move i (.done (.ok result)) with
        effects := s.effects ++ (postCommit.map fun e => (i, e)).toList }
    | _ => none
  | .other tables settings auditEvents =>
    some { s with store := ⟨tables, settings, auditEvents, s.store.idempotencyKeys⟩ }

/-- No call has begun, and no key is used. -/
structure WriteSystem.Fresh (s : WriteSystem S E) : Prop where
  idle : ∀ i, s.phase i = .idle
  keys : s.store.idempotencyKeys = []
  commits : s.commits = []
  effects : s.effects = []

/-! ## Exactly once -/

/-- Two calls of one user with one key. -/
def SameKey (c d : WriteCall S E) : Prop :=
  c.principal.userID = d.principal.userID ∧ ∃ key, readWriteIdempotencyKey c.args = .ok key ∧
    readWriteIdempotencyKey d.args = .ok key

/-- Two calls of one tool with the same arguments. -/
def SameRequest (c d : WriteCall S E) : Prop :=
  c.spec.toolName = d.spec.toolName ∧ SameArgs c.args d.args

/-- A call that its checks let through, with its key and fingerprint. -/
structure WriteCall.Accepted (c : WriteCall S E) (key fingerprint : String) : Prop where
  key : readWriteIdempotencyKey c.args = .ok key
  known : rejectUnknownMCPArgs c.spec.toolName c.args = .ok ()
  fingerprint : fingerprint = mcpRequestFingerprint sha256 c.spec.toolName c.args

/-- A transaction of call `i`. -/
structure TransactSpec (t u : WriteSystem S E) (i : Nat) (f : Faults) : Prop where
  /-- It changes nothing, or it is the first of its key, and mutation, audit event and
  record are committed together. -/
  atomic : (u.store = t.store ∧ u.commits = t.commits) ∨
    ∃ key fingerprint auditEnabled outcome, (calls i).Accepted sha256 key fingerprint ∧
      (∀ d ∈ t.commits, ¬ SameKey (calls i) (calls d.call)) ∧
      Executed (calls i) key fingerprint auditEnabled outcome t.store u.store ∧
      u.commits = t.commits ++ [⟨i, outcome⟩] ∧ u.phase i = .settled outcome.result outcome.postCommit
  /-- A failed mutation leaves nothing. -/
  failed : (∃ err, (calls i).spec.mutate t.store.tables = .error err) → u.store = t.store ∧
    u.commits = t.commits
  /-- After a commit of the key: the stored result, or a rejection. -/
  repeated : ∀ d ∈ t.commits, SameKey (calls i) (calls d.call) →
    (u.store = t.store ∧ u.commits = t.commits) ∧
    (SameRequest (calls i) (calls d.call) → f.lookup = none → f.commit = none →
      u.phase i = .settled d.outcome.result none) ∧
    (¬ SameRequest (calls i) (calls d.call) → f.lookup = none →
      u.phase i = .done (.error (invalidMCPParams TxError.idempotencyMismatch.message)))

/-- A step, from `t` to `u`. -/
def StepSpec (t u : WriteSystem S E) : WriteEvent S → Prop
  | .begin i fault => (u.store = t.store ∧ u.commits = t.commits) ∧
    (fault = none → ∀ d ∈ t.commits, SameKey (calls i) (calls d.call) →
      SameRequest (calls i) (calls d.call) →
      ∃ key fingerprint auditEnabled, u.phase i = .checked key fingerprint auditEnabled)
  | .transact i f => TransactSpec sha256 calls t u i f
  | .finish i => (u.store = t.store ∧ u.commits = t.commits) ∧
    ∃ result postCommit, t.phase i = .settled result postCommit ∧ u.phase i = .done (.ok result)
  | .other .. => u.store.idempotencyKeys = t.store.idempotencyKeys ∧ u.commits = t.commits

/-- The record of a commit. -/
def commitRecord (c : WriteCommit E) : MCPIdempotencyKey :=
  keyRecord (calls c.call) ((readWriteIdempotencyKey (calls c.call).args).toOption.getD "")
    (mcpRequestFingerprint sha256 (calls c.call).spec.toolName (calls c.call).args) c.outcome

/-- A state of a run. -/
structure ExactlyOnce (t : WriteSystem S E) : Prop where
  once : ∀ c ∈ t.commits, ∀ d ∈ t.commits, SameKey (calls c.call) (calls d.call) → c.call = d.call
  nodup : (t.commits.map (·.call)).Nodup
  recorded : t.store.idempotencyKeys = t.commits.map (commitRecord sha256 calls)
  effectsNodup : (t.effects.map (·.1)).Nodup
  effects : ∀ e ∈ t.effects, ∃ c ∈ t.commits, c.call = e.1 ∧ c.outcome.postCommit = some e.2

/-! ## The invariant -/

structure WriteInv (t : WriteSystem S E) : Prop where
  checked : ∀ i key fingerprint auditEnabled, t.phase i = .checked key fingerprint auditEnabled →
    (calls i).Accepted sha256 key fingerprint
  accepted : ∀ c ∈ t.commits, ∃ key fingerprint, (calls c.call).Accepted sha256 key fingerprint
  recorded : t.store.idempotencyKeys = t.commits.map (commitRecord sha256 calls)
  distinct : ∀ c ∈ t.commits, ∀ d ∈ t.commits, SameKey (calls c.call) (calls d.call) → c = d
  settled : ∀ c ∈ t.commits, (∃ result postCommit, t.phase c.call = .settled result postCommit) ∨
    ∃ reply, t.phase c.call = .done reply
  nodup : (t.commits.map (·.call)).Nodup
  pending : ∀ i result e, t.phase i = .settled result (some e) →
    (∃ c ∈ t.commits, c.call = i ∧ c.outcome.postCommit = some e)
  effectsDone : ∀ e ∈ t.effects, ∃ reply, t.phase e.1 = .done reply
  effectsNodup : (t.effects.map (·.1)).Nodup
  effects : ∀ e ∈ t.effects, ∃ c ∈ t.commits, c.call = e.1 ∧ c.outcome.postCommit = some e.2

variable {sha256 calls}

theorem SameKey.symm {c d : WriteCall S E} (h : SameKey c d) : SameKey d c := by
  obtain ⟨huser, key, hc, hd⟩ := h
  exact ⟨huser.symm, key, hd, hc⟩

section Step
variable {s t u : WriteSystem S E} {i : Nat} {key fingerprint : String} {c : WriteCommit E}

theorem WriteSystem.Fresh.inv (h : s.Fresh) : WriteInv sha256 calls s where
  checked i := by simp [h.idle]
  accepted := by simp [h.commits]
  recorded := by simp [h.commits, h.keys]
  distinct := by simp [h.commits]
  settled := by simp [h.commits]
  nodup := by simp [h.commits]
  pending i := by simp [h.idle]
  effectsDone := by simp [h.effects]
  effectsNodup := by simp [h.effects]
  effects := by simp [h.effects]

theorem WriteInv.exactlyOnce (h : WriteInv sha256 calls t) : ExactlyOnce sha256 calls t where
  once c hc d hd hsame := congrArg _ (h.distinct c hc d hd hsame)
  nodup := h.nodup
  recorded := h.recorded
  effectsNodup := h.effectsNodup
  effects := h.effects

/-- The record of an accepted call. -/
theorem commitRecord_eq (h : (calls c.call).Accepted sha256 key fingerprint) :
    commitRecord sha256 calls c = keyRecord (calls c.call) key fingerprint c.outcome := by
  rw [commitRecord, h.key, h.fingerprint]
  rfl

/-- The row found for a call's key is the record of the commit with that key. -/
theorem WriteInv.lookup (h : WriteInv sha256 calls t) (hi : (calls i).Accepted sha256 key fingerprint) :
    (lookupKey (calls i).principal.userID key t.store.idempotencyKeys = none ∧
        ∀ d ∈ t.commits, ¬ SameKey (calls i) (calls d.call)) ∨
      ∃ d ∈ t.commits, SameKey (calls i) (calls d.call) ∧
        lookupKey (calls i).principal.userID key t.store.idempotencyKeys = some
          (commitRecord sha256 calls d) := by
  have hmatch : ∀ d ∈ t.commits, SameKey (calls i) (calls d.call) ↔
      (commitRecord sha256 calls d).userID = (calls i).principal.userID ∧
        (commitRecord sha256 calls d).idempotencyKey = key := by
    intro d hd
    obtain ⟨key', fingerprint', hd'⟩ := h.accepted d hd
    rw [commitRecord_eq hd']
    simp only [SameKey, hi.key, hd'.key, keyRecord, Except.ok.injEq]
    constructor
    · rintro ⟨huser, _, rfl, rfl⟩
      exact ⟨huser.symm, rfl⟩
    · rintro ⟨huser, rfl⟩
      exact ⟨huser.symm, _, rfl, rfl⟩
  rw [lookupKey, h.recorded]
  cases hfind : (t.commits.map (commitRecord sha256 calls)).find? fun row =>
      row.userID = (calls i).principal.userID ∧ row.idempotencyKey = key with
  | none =>
    refine .inl ⟨rfl, fun d hd hsame => ?_⟩
    exact List.find?_eq_none.1 hfind _ (List.mem_map_of_mem hd) (by simpa using (hmatch d hd).1 hsame)
  | some row =>
    obtain ⟨d, hd, rfl⟩ := List.mem_map.1 (List.mem_of_find?_eq_some hfind)
    exact .inr ⟨d, hd, (hmatch d hd).2 (by simpa using List.find?_some hfind), rfl⟩

/-- The commit of a call's key is the only one. -/
theorem WriteInv.commit_unique (h : WriteInv sha256 calls t) {d d' : WriteCommit E}
    (hd : d ∈ t.commits) (hd' : d' ∈ t.commits) (hsame : SameKey (calls i) (calls d.call))
    (hsame' : SameKey (calls i) (calls d'.call)) : d = d' := by
  obtain ⟨huser, key, hi, hk⟩ := hsame
  obtain ⟨huser', key', hi', hk'⟩ := hsame'
  obtain rfl := Except.ok.inj (hi.symm.trans hi')
  exact h.distinct d hd d' hd' ⟨huser.symm.trans huser', key, hk, hk'⟩

/-- A call that its checks let through. -/
theorem beginWrite_ok {c : WriteCall S E} {fault : Option String}
    {settings : List (String × String)} {auditEnabled : Bool}
    (h : beginWrite sha256 c fault settings = .ok (key, fingerprint, auditEnabled)) :
    c.Accepted sha256 key fingerprint := by
  unfold beginWrite at h
  cases hkey : readWriteIdempotencyKey c.args with
  | error message => simp [hkey] at h
  | ok key' =>
    cases hknown : rejectUnknownMCPArgs c.spec.toolName c.args with
    | error message => simp [hkey, hknown] at h
    | ok _ =>
      cases fault with
      | some message => simp [hkey, hknown] at h
      | none =>
        simp only [hkey, hknown, Except.ok.injEq, Prod.mk.injEq] at h
        obtain ⟨rfl, rfl, -⟩ := h
        exact ⟨hkey, hknown, rfl⟩

/-- A call's new phase, seen from another call. -/
theorem move_phase {p q : WritePhase E} {j : Nat} (h : (t.move i p).phase j = q) :
    (j = i ∧ p = q) ∨ (j ≠ i ∧ t.phase j = q) := by
  simp only [WriteSystem.move] at h
  by_cases hj : j = i
  · subst hj
    exact .inl ⟨rfl, by simpa using h⟩
  · exact .inr ⟨hj, by rwa [Function.update_of_ne hj] at h⟩

/-- A call that has committed is past its transaction, and so has left every other phase. -/
theorem WriteInv.notCommitted (h : WriteInv sha256 calls t)
    (hi : t.phase i = .idle ∨ ∃ key fingerprint auditEnabled,
      t.phase i = .checked key fingerprint auditEnabled) :
    i ∉ t.commits.map (·.call) ∧ i ∉ t.effects.map (·.1) := by
  have hnot : ∀ result postCommit reply, t.phase i ≠ .settled result postCommit ∧
      t.phase i ≠ .done reply := by
    intro result postCommit reply
    rcases hi with hi | ⟨key, fingerprint, auditEnabled, hi⟩ <;> simp [hi]
  constructor
  · intro hmem
    obtain ⟨c, hc, rfl⟩ := List.mem_map.1 hmem
    rcases h.settled c hc with ⟨result, postCommit, hphase⟩ | ⟨reply, hphase⟩
    · exact (hnot result postCommit (.ok result)).1 hphase
    · exact (hnot ⟨[], .null, false⟩ none reply).2 hphase
  · intro hmem
    obtain ⟨e, he, rfl⟩ := List.mem_map.1 hmem
    obtain ⟨reply, hphase⟩ := h.effectsDone e he
    exact (hnot ⟨[], .null, false⟩ none reply).2 hphase

/-- A call moves on before its transaction, or its transaction fails. -/
theorem WriteInv.move (h : WriteInv sha256 calls t)
    (hi : t.phase i = .idle ∨ ∃ key fingerprint auditEnabled,
      t.phase i = .checked key fingerprint auditEnabled)
    {p : WritePhase E}
    (hchecked : ∀ key fingerprint auditEnabled, p = .checked key fingerprint auditEnabled →
      (calls i).Accepted sha256 key fingerprint)
    (hsettled : ∀ result e, p ≠ .settled result (some e)) : WriteInv sha256 calls (t.move i p) := by
  obtain ⟨hcommits, heffects⟩ := h.notCommitted hi
  refine
    { h with
      checked := fun j key fingerprint auditEnabled hj => ?_
      settled := fun c hc => ?_
      pending := fun j result e hj => ?_
      effectsDone := fun e he => ?_ }
  · rcases move_phase hj with ⟨rfl, rfl⟩ | ⟨-, hj⟩
    · exact hchecked _ _ _ rfl
    · exact h.checked j _ _ _ hj
  · have hne : c.call ≠ i := fun heq => hcommits (heq ▸ List.mem_map_of_mem hc)
    simpa only [WriteSystem.move, Function.update_of_ne hne] using h.settled c hc
  · rcases move_phase hj with ⟨rfl, hp⟩ | ⟨-, hj⟩
    · exact absurd hp (hsettled result e)
    · exact h.pending j result e hj
  · have hne : e.1 ≠ i := fun heq => heffects (heq ▸ List.mem_map_of_mem he)
    simpa only [WriteSystem.move, Function.update_of_ne hne] using h.effectsDone e he

/-- The first transaction of a key commits. -/
theorem WriteInv.execute (h : WriteInv sha256 calls t) {auditEnabled : Bool}
    (hi : t.phase i = .checked key fingerprint auditEnabled) {outcome : McpWriteOutcome E}
    {store : WriteStore S} (hfirst : ∀ d ∈ t.commits, ¬ SameKey (calls i) (calls d.call))
    (hstore : Executed (calls i) key fingerprint auditEnabled outcome t.store store) :
    WriteInv sha256 calls (t.commit i (.executed outcome) store) := by
  have haccepted := h.checked i _ _ _ hi
  obtain ⟨hcommits, heffects⟩ := h.notCommitted (.inr ⟨_, _, _, hi⟩)
  have hother : ∀ {j}, j ≠ i → (t.commit i (.executed outcome) store).phase j = t.phase j :=
    fun hj => Function.update_of_ne hj ..
  have hself : (t.commit i (.executed outcome) store).phase i = .settled outcome.result
      outcome.postCommit := Function.update_self ..
  -- only call `i` moves, and its commit is the one that is new
  have hmem : ∀ c, c ∈ (t.commit i (.executed outcome) store).commits ↔ c ∈ t.commits ∨
      c = ⟨i, outcome⟩ := fun c => by
    simp [WriteSystem.commit]
  refine
    { checked := fun j key fingerprint auditEnabled hj => ?_
      accepted := fun c hc => ?_
      recorded := ?_
      distinct := fun c hc d hd hsame => ?_
      settled := fun c hc => ?_
      nodup := ?_
      pending := fun j result e hj => ?_
      effectsDone := fun e he => ?_
      effectsNodup := h.effectsNodup
      effects := fun e he => ?_ }
  · by_cases hji : j = i
    · subst hji
      rw [hself] at hj
      cases hj
    · rw [hother hji] at hj
      exact h.checked j _ _ _ hj
  · rcases (hmem c).1 hc with hc | rfl
    · exact h.accepted c hc
    · exact ⟨key, fingerprint, haccepted⟩
  · -- the record stored is that of the commit, so the records remain those of the commits
    have hrecord : commitRecord sha256 calls ⟨i, outcome⟩ = keyRecord
        (calls i) key fingerprint outcome :=
      commitRecord_eq haccepted
    rw [WriteSystem.commit]
    simp only [List.map_append, List.map_cons, List.map_nil, hrecord, ← h.recorded]
    exact hstore.recorded
  · rcases (hmem c).1 hc with hc | rfl <;> rcases (hmem d).1 hd with hd | rfl
    · exact h.distinct c hc d hd hsame
    · exact absurd hsame.symm (hfirst c hc)
    · exact absurd hsame (hfirst d hd)
    · rfl
  · rcases (hmem c).1 hc with hc | rfl
    · have hne : c.call ≠ i := fun heq => hcommits (heq ▸ List.mem_map_of_mem hc)
      rw [hother hne]
      exact h.settled c hc
    · exact .inl ⟨_, _, hself⟩
  · have happend : (t.commit i (.executed outcome) store).commits.map (·.call) = t.commits.map
        (·.call) ++ [i] := by
      simp [WriteSystem.commit]
    rw [happend]
    exact List.nodup_append.2 ⟨h.nodup, List.nodup_singleton i, fun j hj k hk hjk => by
      rw [List.mem_singleton] at hk
      exact hcommits (hk ▸ hjk ▸ hj)⟩
  · by_cases hji : j = i
    · subst hji
      rw [hself] at hj
      simp only [WritePhase.settled.injEq] at hj
      exact ⟨_, (hmem _).2 (.inr rfl), rfl, hj.2⟩
    · rw [hother hji] at hj
      obtain ⟨c, hc, hcall⟩ := h.pending j result e hj
      exact ⟨c, (hmem c).2 (.inl hc), hcall⟩
  · have hne : e.1 ≠ i := fun heq => heffects (heq ▸ List.mem_map_of_mem he)
    rw [hother hne]
    exact h.effectsDone e he
  · obtain ⟨c, hc, hcall⟩ := h.effects e he
    exact ⟨c, (hmem c).2 (.inl hc), hcall⟩

/-- The post-commit effect of a call that has settled runs now, and never before. -/
theorem WriteInv.finish (h : WriteInv sha256 calls t) {result : McpToolResult} {postCommit : Option E}
    (hi : t.phase i = .settled result postCommit) :
    WriteInv sha256 calls
      { t.move i (.done (.ok result)) with
        effects := t.effects ++ (postCommit.map fun e => (i, e)).toList } := by
  have hnew : i ∉ t.effects.map (·.1) := fun hmem => by
    obtain ⟨e, he, rfl⟩ := List.mem_map.1 hmem
    obtain ⟨reply, hdone⟩ := h.effectsDone e he
    rw [hdone] at hi
    cases hi
  have hmem : ∀ e, e ∈ t.effects ++ (postCommit.map fun e => (i, e)).toList → e ∈ t.effects ∨
      (e.1 = i ∧ postCommit = some e.2) := by
    intro e he
    rcases List.mem_append.1 he with he | he
    · exact .inl he
    · cases postCommit with
      | none => cases he
      | some x =>
        obtain rfl := List.mem_singleton.1 he
        exact .inr ⟨rfl, rfl⟩
  refine
    { h with
      checked := fun j key fingerprint auditEnabled hj => ?_
      settled := fun c hc => ?_
      pending := fun j result e hj => ?_
      effectsDone := fun e he => ?_
      effectsNodup := ?_
      effects := fun e he => ?_ }
  · rcases move_phase hj with ⟨-, hp⟩ | ⟨-, hj⟩
    · cases hp
    · exact h.checked j _ _ _ hj
  · by_cases hci : c.call = i
    · exact .inr ⟨.ok result, by simp [WriteSystem.move, hci]⟩
    · simpa only [WriteSystem.move, Function.update_of_ne hci] using h.settled c hc
  · rcases move_phase hj with ⟨-, hp⟩ | ⟨-, hj⟩
    · cases hp
    · exact h.pending j _ e hj
  · by_cases hei : e.1 = i
    · exact ⟨.ok result, by simp [WriteSystem.move, hei]⟩
    · rcases hmem e he with he | ⟨heq, -⟩
      · simpa only [WriteSystem.move, Function.update_of_ne hei] using h.effectsDone e he
      · exact absurd heq hei
  · cases postCommit with
    | none => simpa using h.effectsNodup
    | some x =>
      rw [Option.map_some, Option.toList_some, List.map_append]
      exact List.nodup_append.2 ⟨h.effectsNodup, List.nodup_singleton i, fun j hj k hk hjk => by
        obtain rfl : k = i := by simpa using hk
        exact hnew (hjk ▸ hj)⟩
  · rcases hmem e he with he | ⟨heq, hpost⟩
    · exact h.effects e he
    · subst hpost
      obtain ⟨c, hc, hcall, houtcome⟩ := h.pending i _ _ hi
      exact ⟨c, hc, hcall.trans heq.symm, houtcome⟩

/-- A step keeps the invariant. -/
theorem WriteSystem.step_inv {e : WriteEvent S} (h : WriteInv sha256 calls t)
    (hstep : t.step sha256 calls e = some u) :
    WriteInv sha256 calls u := by
  cases e with
  | begin i fault =>
    simp only [step] at hstep
    cases hi : t.phase i with
    | idle =>
      simp only [hi] at hstep
      cases hbegin : beginWrite sha256 (calls i) fault t.store.settings with
      | error err =>
        simp only [hbegin, Option.some.injEq] at hstep
        exact hstep ▸ h.move (.inl hi) (fun _ _ _ hp => by cases hp) (fun _ _ hp => by cases hp)
      | ok result =>
        obtain ⟨key, fingerprint, auditEnabled⟩ := result
        simp only [hbegin, Option.some.injEq] at hstep
        subst hstep
        refine h.move (.inl hi) (fun key' fingerprint' auditEnabled' hp => ?_)
          (fun _ _ hp => by cases hp)
        simp only [WritePhase.checked.injEq] at hp
        obtain ⟨rfl, rfl, rfl⟩ := hp
        exact beginWrite_ok hbegin
    | checked | settled | done => simp [hi] at hstep
  | transact i f =>
    simp only [step] at hstep
    cases hi : t.phase i with
    | checked key fingerprint auditEnabled =>
      simp only [hi] at hstep
      have haccepted := h.checked i _ _ _ hi
      cases htransact : transact (calls i) key fingerprint auditEnabled f t.store with
      | error err =>
        simp only [htransact, Option.some.injEq] at hstep
        exact hstep ▸ h.move (.inr ⟨_, _, _, hi⟩) (fun _ _ _ hp => by cases hp)
          (fun _ _ hp => by cases hp)
      | ok result =>
        obtain ⟨done, store⟩ := result
        simp only [htransact, Option.some.injEq] at hstep
        subst hstep
        -- a stored record is replayed, or the action is run
        rcases transact_ok htransact with ⟨existing, result, -, -, rfl, rfl⟩ |
          ⟨outcome, hnone, rfl, hexecuted⟩
        · exact h.move (.inr ⟨_, _, _, hi⟩) (fun _ _ _ hp => by cases hp) (fun _ _ hp => by cases hp)
        · -- no record was found, so no call with this key has committed
          rcases h.lookup haccepted with ⟨-, hfirst⟩ | ⟨d, -, -, hsome⟩
          · exact h.execute hi hfirst hexecuted
          · rw [hnone] at hsome
            cases hsome
    | idle | settled | done => simp [hi] at hstep
  | finish i =>
    simp only [step] at hstep
    cases hi : t.phase i with
    | settled result postCommit =>
      simp only [hi, Option.some.injEq] at hstep
      exact hstep ▸ h.finish hi
    | idle | checked | done => simp [hi] at hstep
  | other tables settings auditEvents =>
    obtain rfl := Option.some.inj hstep
    exact { h with }

/-- The transaction of a call whose key has a commit. -/
theorem WriteInv.repeated (hsha : Function.Injective sha256) (h : WriteInv sha256 calls t)
    (auditEnabled : Bool) (f : Faults) (hi : (calls i).Accepted sha256 key fingerprint)
    {d : WriteCommit E} (hd : d ∈ t.commits) (hsame : SameKey (calls i) (calls d.call))
    (hlookup : f.lookup = none) : (SameRequest (calls i) (calls d.call) → f.commit = none →
        transact (calls i) key fingerprint auditEnabled f t.store = .ok
          (.replayed d.outcome.result, t.store)) ∧
      (¬ SameRequest (calls i) (calls d.call) →
        transact (calls i) key fingerprint auditEnabled f t.store = .error .idempotencyMismatch) := by
  obtain ⟨-, hnone⟩ | ⟨d', hd', hsame', hrow⟩ := h.lookup hi
  · exact absurd hsame (hnone d hd)
  obtain rfl := h.commit_unique hd hd' hsame hsame'
  have hhash : (commitRecord sha256 calls d).requestHash = fingerprint ↔
      SameRequest (calls i) (calls d.call) := by
    rw [hi.fingerprint, eq_comm]
    exact mcpRequestFingerprint_inj hsha
  rw [transact_recorded hrow hlookup, replay]
  constructor
  · intro hreq hcommit
    have hdecode : decodeStoredMCPResult
        (commitRecord sha256 calls d).response = some d.outcome.result := decode_encode _
    rw [if_neg (not_not.2 (hhash.2 hreq)), hdecode, hcommit]
    rfl
  · intro hreq
    rw [if_pos fun heq => hreq (hhash.1 heq)]
    rfl

/-- What a transaction step does. -/
theorem WriteInv.transactSpec (hsha : Function.Injective sha256) (h : WriteInv sha256 calls t)
    {f : Faults} (hstep : t.step sha256 calls (.transact i f) = some u) :
    TransactSpec sha256 calls t u i f := by
  simp only [WriteSystem.step] at hstep
  cases hi : t.phase i with
  | idle | settled | done => simp [hi] at hstep
  | checked key fingerprint auditEnabled =>
  simp only [hi] at hstep
  have haccepted := h.checked i _ _ _ hi
  have hrepeated :=
    fun d (hd : d ∈ t.commits) hsame hlookup => h.repeated hsha auditEnabled f haccepted hd hsame hlookup
  cases htransact : transact (calls i) key fingerprint auditEnabled f t.store with
  | error err =>
    simp only [htransact, Option.some.injEq] at hstep
    subst hstep
    refine ⟨.inl ⟨rfl, rfl⟩, fun _ => ⟨rfl, rfl⟩, fun d hd hsame =>
      ⟨⟨rfl, rfl⟩, fun hreq hlookup hcommit => ?_, fun hreq hlookup => ?_⟩⟩
    · have := (hrepeated d hd hsame hlookup).1 hreq hcommit
      rw [htransact] at this
      cases this
    · have := (hrepeated d hd hsame hlookup).2 hreq
      rw [htransact, Except.error.injEq] at this
      subst this
      exact Function.update_self ..
  | ok result =>
    obtain ⟨done, store⟩ := result
    simp only [htransact, Option.some.injEq] at hstep
    subst hstep
    rcases transact_ok htransact with ⟨existing, result, hsome, -, rfl, rfl⟩ |
      ⟨outcome, hnone, rfl, hexecuted⟩
    · refine ⟨.inl ⟨rfl, rfl⟩, fun _ => ⟨rfl, rfl⟩, fun d hd hsame =>
        ⟨⟨rfl, rfl⟩, fun hreq hlookup hcommit => ?_, fun hreq hlookup => ?_⟩⟩
      · have := (hrepeated d hd hsame hlookup).1 hreq hcommit
        rw [htransact] at this
        simp only [Except.ok.injEq, Prod.mk.injEq, Settled.replayed.injEq, and_true] at this
        subst this
        exact Function.update_self ..
      · have := (hrepeated d hd hsame hlookup).2 hreq
        rw [htransact] at this
        cases this
    · obtain ⟨-, hfirst⟩ | ⟨d, -, -, hrow⟩ := h.lookup haccepted
      · refine ⟨.inr ⟨key, fingerprint, auditEnabled, outcome, haccepted, hfirst, hexecuted, rfl,
          Function.update_self ..⟩,
          fun ⟨err, herr⟩ => ?_, fun d hd hsame => absurd hsame (hfirst d hd)⟩
        rw [hexecuted.mutated] at herr
        cases herr
      · rw [hnone] at hrow
        cases hrow

/-- The checks let a repetition of a committed request through. -/
theorem WriteInv.begin_repeated (h : WriteInv sha256 calls t) {d : WriteCommit E} (hd : d ∈ t.commits)
    (hsame : SameKey (calls i) (calls d.call)) (hreq : SameRequest (calls i) (calls d.call))
    (settings : List (String × String)) :
    ∃ key fingerprint auditEnabled, beginWrite sha256 (calls i) none settings = .ok
    (key, fingerprint, auditEnabled) := by
  obtain ⟨key', fingerprint', hd'⟩ := h.accepted d hd
  obtain ⟨-, key, hkey, hkey'⟩ := hsame
  have hknown : rejectUnknownMCPArgs (calls i).spec.toolName (calls i).args = .ok () := by
    rw [hreq.1]
    exact hreq.2.rejectUnknown hkey' hd'.known
  refine ⟨key, mcpRequestFingerprint sha256 (calls i).spec.toolName (calls i).args,
    auditIsEnabled settings, ?_⟩
  rw [beginWrite, hkey]
  simp only [hknown]

/-- What a step does. -/
theorem WriteInv.stepSpec (hsha : Function.Injective sha256) (h : WriteInv sha256 calls t)
    {e : WriteEvent S} (hstep : t.step sha256 calls e = some u) : StepSpec sha256 calls t u e := by
  cases e with
  | begin i fault =>
    simp only [WriteSystem.step] at hstep
    cases hi : t.phase i with
    | checked | settled | done => simp [hi] at hstep
    | idle =>
      simp only [hi] at hstep
      cases hbegin : beginWrite sha256 (calls i) fault t.store.settings with
      | error err =>
        simp only [hbegin, Option.some.injEq] at hstep
        subst hstep
        refine ⟨⟨rfl, rfl⟩, fun hfault d hd hsame hreq => ?_⟩
        obtain ⟨key, fingerprint, auditEnabled, hok⟩ := h.begin_repeated hd hsame hreq t.store.settings
        rw [← hfault, hbegin] at hok
        cases hok
      | ok result =>
        simp only [hbegin, Option.some.injEq] at hstep
        subst hstep
        exact ⟨⟨rfl, rfl⟩, fun _ _ _ _ _ => ⟨_, _, _, Function.update_self ..⟩⟩
  | transact i f => exact h.transactSpec hsha hstep
  | finish i =>
    simp only [WriteSystem.step] at hstep
    cases hi : t.phase i with
    | idle | checked | done => simp [hi] at hstep
    | settled result postCommit =>
      simp only [hi, Option.some.injEq] at hstep
      subst hstep
      exact ⟨⟨rfl, rfl⟩, result, postCommit, hi, Function.update_self ..⟩
  | other tables settings auditEvents =>
    obtain rfl := Option.some.inj hstep
    exact ⟨rfl, rfl⟩

end Step

end Runs

/-! ## A concurrent retry -/

def sampleArgs : Args := [("idempotency_key", .str "retry"), ("id", .num ⟨['7'], by decide⟩)]

/-- SHA-256 on the payload of `sampleArgs`, and another injective function elsewhere. -/
def sampleDigest (text : List Char) : String :=
  if text = "\x7b\"args\":\x7b\"id\":7\x7d,\"tool\":\"delete_subscription\"\x7d".toList then
    "943b6774c721b7116cdcec34e8364aa2da4d115da32bf631e16451580df6e11f"
  else String.ofList ('x' :: text)

theorem sampleDigest_injective : Function.Injective sampleDigest := by
  intro a b h
  unfold sampleDigest at h
  have hhead : ∀ text,
      "943b6774c721b7116cdcec34e8364aa2da4d115da32bf631e16451580df6e11f" ≠ String.ofList ('x' :: text) :=
    fun text heq => by
      have hchar := congrArg (fun s : String => s.toList.head?) heq
      simp only [String.toList_ofList, List.head?_cons] at hchar
      revert hchar
      decide
  split_ifs at h with ha hb hb
  · rw [ha, hb]
  · exact absurd h (hhead b)
  · exact absurd h.symm (hhead a)
  · exact (List.cons.inj (String.ofList_injective h)).2

/-- Two calls that delete subscription 7. -/
def sampleCall : WriteCall (List Nat) Nat where
  principal := ⟨1, 1, "mcp_client"⟩
  args := sampleArgs
  spec :=
    { toolName := "delete_subscription"
      resourceType := "subscription"
      mutate := fun rows =>
        if 7 ∈ rows then .ok
          (⟨⟨[], .bool true, false⟩, "delete", "7", .null, .null, some 7⟩, rows.erase 7)
        else .error .recordNotFound }

def sampleWrites : WriteSystem (List Nat) Nat := ⟨⟨[7], [], [], []⟩, fun _ => .idle, [], []⟩

def noFaults : Faults := ⟨none, .ok "e", none, none, none⟩

instance (s : WriteSystem (List Nat) Nat) (e : WriteEvent (List Nat)) : Decidable (Always s e) :=
  inferInstanceAs (Decidable True)

def retryEvents : List (WriteEvent (List Nat)) :=
  [.begin 0 none, .begin 1 none, .transact 1 noFaults, .transact 0 noFaults, .finish 0, .finish 1]

end Subdux
