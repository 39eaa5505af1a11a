import Subdux.ApiKeys
import Subdux.Lib.Runs
/-!
# Requests with an API key

Any number of requests present a key while keys are made and deleted and users are disabled and
deleted. `ValidateKey` reads the row, the clock and the owner one after the other, and each of these
is an event. `past` lists the tables as they were before each event, `created` the keys that were
ever made, `removed` the ids of rows that are gone with the event that removed them, and `served` the
requests that reached a handler or a tool.

`api_key_requests` says when a request gets there.
-/

namespace Subdux
open GoStrings Rows Results Runs

/-- The tables that `ValidateKey` reads. -/
structure KeyTables where
  users : List SessionUser
  keys : List APIKey
  deriving DecidableEq

/-- A key, as it was made. -/
structure CreatedKey where
  rawKey : String
  row : APIKey
  input : CreateAPIKeyInput
  scopes : List String
  deriving DecidableEq

/-- A request, with the number of events and the clock before it began. -/
structure KeyRequest where
  target : KeyTarget
  rawKey : String
  begun : Nat
  clock : Time
  deriving DecidableEq

/-- How far a request came in `ValidateKey`. -/
inductive KeyCheck where
  | presented (request : KeyRequest)
  | found (request : KeyRequest) (key : APIKey)
  | unexpired (request : KeyRequest) (key : APIKey)
  | active (request : KeyRequest) (key : APIKey)
  /-- It has its principal. -/
  | validated (request : KeyRequest) (key : APIKey)
  deriving DecidableEq

structure ServedRequest where
  request : KeyRequest
  principal : APIKeyPrincipal
  deriving DecidableEq

/-- A call of `Create` that has prepared its row. -/
structure PendingKey where
  userID : Nat
  input : CreateAPIKeyInput
  keyKind : String
  scopes : List String
  deriving DecidableEq

structure APIKeySystem where
  tables : KeyTables
  nextKeyID : Nat
  clock : Time
  creating : Nat → Option PendingKey
  checks : Nat → Option KeyCheck
  past : List KeyTables
  created : List CreatedKey
  removed : List (Nat × Nat)
  served : List ServedRequest

def APIKeySystem.initial (users : List SessionUser) (clock : Time) : APIKeySystem :=
  ⟨⟨users, []⟩, 1, clock, fun _ => none, fun _ => none, [], [], [], []⟩

inductive APIKeyEvent where
  | prepare (i : Nat) (userID : Nat) (role : String) (input : CreateAPIKeyInput)
  | insert (i : Nat) (bytes : APIKeyBytes)
  | delete (userID keyID : Nat)
  /-- What else happens to the users; the keys of a deleted user go with it. -/
  | others (users : List SessionUser)
  | present (i : Nat) (target : KeyTarget) (header : String)
  | find (i : Nat)
  | checkExpiry (i : Nat) (now : Time)
  | checkActive (i : Nat)
  /-- `ValidateKey` does not look at whether the update succeeded. -/
  | touch (i : Nat) (now : Time) (succeeded : Bool)
  | serve (i : Nat)
  /-- A statement fails, or another check of the request. -/
  | fail (i : Nat)

/-- The clock goes forward; a key is presented to a route or a tool that there is. -/
def APIKeyEvent.Fits (s : APIKeySystem) : APIKeyEvent → Prop
  | .checkExpiry _ now | .touch _ now _ => s.clock.nanos ≤ now.nanos
  | .present _ (.route r) _ => r ∈ routes
  | .present _ (.tool t) _ => t ∈ mcpTools
  | _ => True

instance APIKeyEvent.decidableFits (s : APIKeySystem) (e : APIKeyEvent) : Decidable (e.Fits s) := by
  cases e with
  | present i target header => cases target <;> unfold APIKeyEvent.Fits <;> infer_instance
  | _ => unfold APIKeyEvent.Fits; infer_instance

section System
variable (hashAPIKey : String → String)

/-- `JWTOrAPIKeyMiddleware` takes the header as it is, and the admin routes look at no key; the MCP
handler trims it. -/
def presentedKey (target : KeyTarget) (header : String) : Option String :=
  match target with
  | .route r => if r.group = .admin ∨ header = "" then none else some header
  | .tool _ => if trimSpace header = "" then none else some (trimSpace header)

def APIKeySystem.goTo (s : APIKeySystem) (i : Nat) (check : Option KeyCheck) : APIKeySystem :=
  { s with checks := set s.checks i check }

/-- The insertion of `Create`: the owner exists, and the hash is unique. -/
def APIKeySystem.insert (s : APIKeySystem) (i : Nat) (pending : PendingKey) (bytes : APIKeyBytes) :
    APIKeySystem :=
  let rawKey := generateAPIKey bytes
  let row : APIKey :=
    ⟨s.nextKeyID, pending.userID, pending.input.name, hashAPIKey rawKey,
      String.ofList (rawKey.toList.take 12),
    pending.keyKind, String.intercalate "," pending.scopes, none, pending.input.expiresAt⟩
  if s.tables.keys.any (·.keyHash = row.keyHash) ∨ ¬ s.tables.users.any (·.id = row.userID) then
    { s with creating := set s.creating i none }
  else
    { s with
      tables := { s.tables with keys := s.tables.keys ++ [row] }
      nextKeyID := s.nextKeyID + 1
      creating := set s.creating i none
      created := s.created ++ [⟨rawKey, row, pending.input, pending.scopes⟩] }

/-- An event, but for what `past` and `removed` keep of it. -/
def APIKeySystem.act (s : APIKeySystem) : APIKeyEvent → Option APIKeySystem
  | .prepare i userID role input =>
    let input := { input with name := trimSpace input.name }
    match s.creating i, prepareAPIKey s.tables.keys userID role input with
    | none, .ok (keyKind, scopes) =>
      some { s with creating := set s.creating i (some ⟨userID, input, keyKind, scopes⟩) }
    | _, _ => none
  | .insert i bytes => (s.creating i).map fun pending => s.insert hashAPIKey i pending bytes
  | .delete userID keyID =>
    some
      { s with
        tables := { s.tables with
          keys := s.tables.keys.filter fun key => ¬ (key.id = keyID ∧ key.userID = userID) } }
  | .others users =>
    some { s with tables := ⟨users, s.tables.keys.filter fun key => users.any (·.id = key.userID)⟩ }
  | .present i target header =>
    match s.checks i, presentedKey target header with
    | none, some rawKey => some (s.goTo i (some (.presented ⟨target, rawKey, s.past.length, s.clock⟩)))
    | _, _ => none
  | .find i =>
    match s.checks i with
    | some (.presented request) =>
      some (s.goTo i ((s.tables.keys.find? (·.keyHash = hashAPIKey request.rawKey)).map
        (.found request)))
    | _ => none
  | .checkExpiry i now =>
    match s.checks i with
    | some (.found request key) =>
      some
        { s.goTo i (if key.expiresAt.any (·.before now) then none
          else some (.unexpired request key)) with clock := now }
    | _ => none
  | .checkActive i =>
    match s.checks i with
    | some (.unexpired request key) =>
      some (s.goTo i (if (s.tables.users.find? (·.id = key.userID)).any (·.status = "active")
        then some (.active request key) else none))
    | _ => none
  | .touch i now succeeded =>
    match s.checks i with
    | some (.active request key) =>
      some { s.goTo i (some (.validated request key)) with
        tables := { s.tables with
          keys := updateWhere (fun row => succeeded ∧ row.id = key.id)
            ({ · with lastUsedAt := some now }) s.tables.keys }
        clock := now }
    | _ => none
  | .serve i =>
    match s.checks i with
    | some (.validated request key) =>
      match request.target.authorize key.principal with
      | .error _ => some (s.goTo i none)
      | .ok _ => some { s.goTo i none with served := s.served ++ [⟨request, key.principal⟩] }
    | _ => none
  | .fail i => some (s.goTo i none)

def APIKeySystem.ids (tables : KeyTables) : List Nat := tables.keys.map (·.id)

/-- The ids that an event removes, with the number of the event. -/
def APIKeySystem.lost (s t : APIKeySystem) : List (Nat × Nat) :=
  ((APIKeySystem.ids s.tables).filter (· ∉ APIKeySystem.ids t.tables)).map (·, s.past.length)

def APIKeySystem.record (s t : APIKeySystem) : APIKeySystem :=
  { t with past := s.past ++ [s.tables], removed := s.removed ++ s.lost t }

def APIKeySystem.step (s : APIKeySystem) (e : APIKeyEvent) : Option APIKeySystem :=
  (s.act hashAPIKey e).map s.record

end System

/-! ## What every state keeps -/

section Invariant
variable (hashAPIKey : String → String) (s : APIKeySystem)

/-- The row was made by `Create`, and only its last use has changed. -/
def APIKeySystem.Made (key : APIKey) : Prop :=
  ∃ c ∈ s.created, c.row = { key with lastUsedAt := none } ∧ c.row.keyHash = hashAPIKey c.rawKey ∧
    normalizeAPIKeyKind c.input.keyKind = .ok c.row.keyKind ∧
      normalizeAPIKeyScopes c.input.scopes = .ok c.scopes ∧
    c.row.scopes = String.intercalate "," c.scopes

/-- The row was there when it was read, at event `m` of the run. -/
def APIKeySystem.Read (request : KeyRequest) (key : APIKey) (m : Nat) : Prop :=
  request.begun ≤ m ∧ key.keyHash = hashAPIKey request.rawKey ∧ ∃ tables, s.past[m]? = some tables ∧
    key ∈ tables.keys

/-- A later reading of the clock found the key not expired. -/
def Unexpired (request : KeyRequest) (key : APIKey) : Prop :=
  ∃ now : Time, request.clock.nanos ≤ now.nanos ∧ ∀ expiresAt, key.expiresAt = some expiresAt →
    expiresAt.before now = false

/-- The owner was active when it was read, at event `n`. -/
def APIKeySystem.OwnerActive (key : APIKey) (m n : Nat) : Prop :=
  m ≤ n ∧ ∃ tables, s.past[n]? = some tables ∧ ∃ user ∈ tables.users, user.id = key.userID ∧
    user.status = "active"

/-- What `ValidateKey` has seen of a key. -/
def KeyCheck.Sound : KeyCheck → Prop
  | .presented request => request.begun ≤ s.past.length ∧ request.clock.nanos ≤ s.clock.nanos
  | .found request key =>
    request.clock.nanos ≤ s.clock.nanos ∧ s.Made hashAPIKey key ∧ ∃ m, s.Read hashAPIKey request key m
  | .unexpired request key =>
    s.Made hashAPIKey key ∧ (∃ m, s.Read hashAPIKey request key m) ∧ Unexpired request key
  | .active request key | .validated request key => s.Made hashAPIKey key ∧ Unexpired request key ∧
      ∃ m n, s.Read hashAPIKey request key m ∧ s.OwnerActive key m n

def KeyCheck.request : KeyCheck → KeyRequest
  | .presented request | .found request _ | .unexpired request _ | .active request _ | .validated
    request _ => request

/-- A request that was served, and the key it was served for. -/
def ServedRequest.Sound (x : ServedRequest) : Prop :=
  ∃ key, x.principal = key.principal ∧ s.Made hashAPIKey key ∧ Unexpired x.request key ∧
    (∃ m n, s.Read hashAPIKey x.request key m ∧ s.OwnerActive key m n) ∧
      x.request.target.Permits x.principal

structure KeyInv : Prop where
  made : ∀ key ∈ s.tables.keys, s.Made hashAPIKey key
  /-- A row that is gone was not there after the event that removed it. -/
  removed : ∀ r ∈ s.removed, r.2 < s.past.length ∧ r.1 < s.nextKeyID ∧ r.1 ∉ APIKeySystem.ids s.tables ∧
    ∀ m tables, r.2 < m → s.past[m]? = some tables → r.1 ∉ APIKeySystem.ids tables
  fresh : ∀ id ∈ APIKeySystem.ids s.tables, id < s.nextKeyID
  pending : ∀ i p, s.creating i = some p → normalizeAPIKeyKind p.input.keyKind = .ok p.keyKind ∧
    normalizeAPIKeyScopes p.input.scopes = .ok p.scopes
  checks : ∀ i c, s.checks i = some c → c.Sound hashAPIKey s
  served : ∀ x ∈ s.served, x.Sound hashAPIKey s

end Invariant

section Steps
variable {hashAPIKey : String → String} {s t : APIKeySystem} {request : KeyRequest} {key : APIKey}
  {i m n : Nat}

/-- What the evidence of a request rests on only grows. -/
structure KeyHistory (s t : APIKeySystem) : Prop where
  past : s.past <+: t.past
  created : s.created ⊆ t.created
  clock : s.clock.nanos ≤ t.clock.nanos

theorem KeyHistory.table (h : KeyHistory s t) {tables : KeyTables} (hm : s.past[m]? = some tables) :
    t.past[m]? = some tables := by
  obtain ⟨more, hmore⟩ := h.past
  rw [← hmore, List.getElem?_append_left (List.getElem?_eq_some_iff.1 hm).1, hm]

theorem APIKeySystem.Made.mono (h : s.Made hashAPIKey key) (hgrown : KeyHistory s t) :
    t.Made hashAPIKey key := by
  obtain ⟨c, hc, hrest⟩ := h
  exact ⟨c, hgrown.created hc, hrest⟩

theorem APIKeySystem.Read.mono (h : s.Read hashAPIKey request key m) (hgrown : KeyHistory s t) :
    t.Read hashAPIKey request key m := by
  obtain ⟨hbegun, hhash, tables, hm, hmem⟩ := h
  exact ⟨hbegun, hhash, tables, hgrown.table hm, hmem⟩

theorem APIKeySystem.OwnerActive.mono (h : s.OwnerActive key m n) (hgrown : KeyHistory s t) :
    t.OwnerActive key m n := by
  obtain ⟨hle, tables, hn, huser⟩ := h
  exact ⟨hle, tables, hgrown.table hn, huser⟩

theorem KeyCheck.Sound.mono {c : KeyCheck} (h : c.Sound hashAPIKey s) (hgrown : KeyHistory s t) :
    c.Sound hashAPIKey t := by
  cases c with
  | presented request => exact ⟨h.1.trans hgrown.past.length_le, h.2.trans hgrown.clock⟩
  | found request key =>
    obtain ⟨hclock, hmade, m, hread⟩ := h
    exact ⟨hclock.trans hgrown.clock, hmade.mono hgrown, m, hread.mono hgrown⟩
  | unexpired request key =>
    obtain ⟨hmade, ⟨m, hread⟩, hfresh⟩ := h
    exact ⟨hmade.mono hgrown, ⟨m, hread.mono hgrown⟩, hfresh⟩
  | active request key | validated request key =>
    obtain ⟨hmade, hfresh, m, n, hread, hactive⟩ := h
    exact ⟨hmade.mono hgrown, hfresh, m, n, hread.mono hgrown, hactive.mono hgrown⟩

theorem ServedRequest.Sound.mono {x : ServedRequest} (h : x.Sound hashAPIKey s)
    (hgrown : KeyHistory s t) : x.Sound hashAPIKey t := by
  obtain ⟨key, hprincipal, hmade, hfresh, ⟨m, n, hread, hactive⟩, hpermits⟩ := h
  exact ⟨key, hprincipal, hmade.mono hgrown, hfresh, ⟨m, n, hread.mono hgrown, hactive.mono hgrown⟩,
    hpermits⟩

theorem record_history (hcreated : s.created ⊆ t.created) (hclock : s.clock.nanos ≤ t.clock.nanos) :
    KeyHistory s (s.record t) :=
  ⟨List.prefix_append _ _, hcreated, hclock⟩

/-- The tables of the event that happens now. -/
theorem record_now (s t : APIKeySystem) : (s.record t).past[s.past.length]? = some s.tables :=
  List.getElem?_concat_length ..

/-- What an event has to do. -/
structure KeyStep (hashAPIKey : String → String) (s t : APIKeySystem) : Prop where
  history : s.created ⊆ t.created ∧ s.clock.nanos ≤ t.clock.nanos ∧ s.nextKeyID ≤ t.nextKeyID
  made : ∀ key ∈ t.tables.keys, t.Made hashAPIKey key
  ids : ∀ id ∈ APIKeySystem.ids t.tables, id ∈ APIKeySystem.ids s.tables ∨
    (s.nextKeyID ≤ id ∧ id < t.nextKeyID)
  pending : ∀ i p, t.creating i = some p → normalizeAPIKeyKind p.input.keyKind = .ok p.keyKind ∧
    normalizeAPIKeyScopes p.input.scopes = .ok p.scopes
  checks : ∀ i c, t.checks i = some c → s.checks i = some c ∨ c.Sound hashAPIKey (s.record t)
  served : ∀ x ∈ t.served, x ∈ s.served ∨ x.Sound hashAPIKey (s.record t)

theorem KeyInv.step_of (h : KeyInv hashAPIKey s) (hstep : KeyStep hashAPIKey s t) :
    KeyInv hashAPIKey (s.record t) := by
  obtain ⟨hcreated, hclock, hnext⟩ := hstep.history
  have hgrown : KeyHistory s (s.record t) := record_history hcreated hclock
  constructor
  case made => exact hstep.made
  case removed =>
    intro r hr
    have hlength : (s.record t).past.length = s.past.length + 1 := by simp [APIKeySystem.record]
    rcases List.mem_append.1 hr with hr | hr
    · obtain ⟨hlt, hold, hgone, hnever⟩ := h.removed r hr
      refine ⟨by omega, lt_of_lt_of_le hold hnext, ?_, ?_⟩
      · intro hback
        rcases hstep.ids _ hback with hback | ⟨hnew, -⟩
        · exact hgone hback
        · omega
      · intro m tables hm htables
        have hle : m < s.past.length + 1 := hlength ▸ (List.getElem?_eq_some_iff.1 htables).1
        by_cases hnow : m = s.past.length
        · subst hnow
          rw [record_now] at htables
          exact Option.some.inj htables ▸ hgone
        · rw [APIKeySystem.record, List.getElem?_append_left (by omega)] at htables
          exact hnever m tables hm htables
    · -- an id that this event removes
      obtain ⟨id, hid, rfl⟩ := List.mem_map.1 hr
      obtain ⟨hthere, hgone⟩ := List.mem_filter.1 hid
      refine ⟨by dsimp only; omega, lt_of_lt_of_le (h.fresh id hthere) hnext,
        of_decide_eq_true hgone, ?_⟩
      intro m tables hm htables
      have hle : m < s.past.length + 1 := hlength ▸ (List.getElem?_eq_some_iff.1 htables).1
      dsimp only at hm
      omega
  case fresh =>
    intro id hid
    rcases hstep.ids id hid with hid | ⟨-, hlt⟩
    · exact lt_of_lt_of_le (h.fresh id hid) hnext
    · exact hlt
  case pending => exact hstep.pending
  case checks =>
    intro i c hc
    rcases hstep.checks i c hc with hc | hsound
    · exact (h.checks i c hc).mono hgrown
    · exact hsound
  case served =>
    intro x hx
    rcases hstep.served x hx with hx | hsound
    · exact (h.served x hx).mono hgrown
    · exact hsound

/-- An event that leaves the ids of the keys. -/
theorem KeyInv.keep (h : KeyInv hashAPIKey s) (hclock : s.clock.nanos ≤ t.clock.nanos)
    (hcreated : t.created = s.created) (hnext : t.nextKeyID = s.nextKeyID)
    (hcreating : t.creating = s.creating)
    (hkeys : ∀ key ∈ t.tables.keys, ∃ old ∈ s.tables.keys, old.id = key.id ∧
      { old with lastUsedAt := none } = { key with lastUsedAt := none })
      (hchecks : ∀ i c, t.checks i = some c → s.checks i = some c ∨ c.Sound hashAPIKey (s.record t))
    (hserved : ∀ x ∈ t.served, x ∈ s.served ∨ x.Sound hashAPIKey (s.record t)) : KeyStep hashAPIKey
    s t where
  history := ⟨hcreated ▸ List.Subset.refl _, hclock, hnext.ge⟩
  made key hkey := by
    obtain ⟨old, hold, -, hsame⟩ := hkeys key hkey
    obtain ⟨c, hc, hrow, hrest⟩ := h.made old hold
    exact ⟨c, hcreated ▸ hc, hrow.trans hsame, hrest⟩
  ids id hid := by
    obtain ⟨key, hkey, rfl⟩ := List.mem_map.1 hid
    obtain ⟨old, hold, hsame, -⟩ := hkeys key hkey
    exact .inl (List.mem_map.2 ⟨old, hold, hsame⟩)
  pending := hcreating ▸ h.pending
  checks := hchecks
  served := hserved

/-- A request goes on. -/
theorem KeyInv.goTo (h : KeyInv hashAPIKey s) {check : Option KeyCheck} (now : Time)
    (hclock : s.clock.nanos ≤ now.nanos)
    (hsound : ∀ c, check = some c → c.Sound hashAPIKey (s.record { s.goTo i check with clock := now })) :
    KeyStep hashAPIKey s { s.goTo i check with clock := now } := by
  refine h.keep hclock rfl rfl rfl (fun key hkey => ⟨key, hkey, rfl, rfl⟩) ?_ (fun x hx => .inl hx)
  exact forall_set (P := fun j c => s.checks j = some c ∨
    c.Sound hashAPIKey (s.record { s.goTo i check with clock := now }))
    (fun j c hc => .inl hc) (fun c hc => .inr (hsound c hc))

theorem prepareAPIKey_ok {keys : List APIKey} {userID : Nat} {role keyKind : String}
    {input : CreateAPIKeyInput} {scopes : List String}
    (h : prepareAPIKey keys userID role input = .ok (keyKind, scopes)) :
    normalizeAPIKeyKind input.keyKind = .ok keyKind ∧
    normalizeAPIKeyScopes input.scopes = .ok scopes := by
  unfold prepareAPIKey at h
  obtain ⟨_, -, h⟩ := bind_eq_ok h
  obtain ⟨_, -, h⟩ := bind_eq_ok h
  obtain ⟨kind, hkind, h⟩ := bind_eq_ok h
  obtain ⟨_, -, h⟩ := bind_eq_ok h
  obtain ⟨kept, hkept, h⟩ := bind_eq_ok h
  obtain ⟨rfl, rfl⟩ := Prod.mk.inj (Except.ok.inj h)
  exact ⟨hkind, hkept⟩

theorem KeyInv.insert (h : KeyInv hashAPIKey s) {pending : PendingKey}
    (hpending : s.creating i = some pending) (bytes : APIKeyBytes) :
    KeyStep hashAPIKey s (s.insert hashAPIKey i pending bytes) := by
  obtain ⟨hkind, hscopes⟩ := h.pending i pending hpending
  have hstop : ∀ j p, set s.creating i none j = some p →
      normalizeAPIKeyKind p.input.keyKind = .ok p.keyKind ∧
      normalizeAPIKeyScopes p.input.scopes = .ok p.scopes := forall_set h.pending fun p hp => by cases hp
  unfold APIKeySystem.insert
  dsimp only
  split
  · exact ⟨⟨List.Subset.refl _, le_refl _, le_refl _⟩, h.made, fun id hid => .inl hid, hstop,
      fun i c hc => .inl hc, fun x hx => .inl hx⟩
  · refine ⟨⟨List.subset_append_left _ _, le_refl _, Nat.le_succ _⟩, ?_, ?_, hstop, fun i c hc =>
      .inl hc, fun x hx => .inl hx⟩
    · intro key hkey
      rcases List.mem_append.1 hkey with hkey | hkey
      · obtain ⟨c, hc, hrest⟩ := h.made key hkey
        exact ⟨c, List.mem_append_left _ hc, hrest⟩
      · obtain rfl := List.mem_singleton.1 hkey
        exact ⟨_, List.mem_append_right _ (List.mem_singleton_self _), rfl, rfl, hkind, hscopes, rfl⟩
    · intro id hid
      rw [APIKeySystem.ids, List.map_append, List.mem_append] at hid
      rcases hid with hid | hid
      · exact .inl hid
      · rw [List.map_singleton, List.mem_singleton] at hid
        exact .inr (by dsimp only at hid ⊢; omega)

/-- A read of a row, now. -/
theorem read_now (hbegun : request.begun ≤ s.past.length) (hkey : key ∈ s.tables.keys)
    (hhash : key.keyHash = hashAPIKey request.rawKey) :
    (s.record t).Read hashAPIKey request key s.past.length :=
  ⟨hbegun, hhash, s.tables, record_now s t, hkey⟩

/-- The principal of a key that `Create` made. -/
theorem APIKeySystem.Made.principal (h : s.Made hashAPIKey key) :
    ∃ c ∈ s.created, c.row.userID = key.principal.userID ∧
    c.row.id = key.principal.keyID ∧ hashAPIKey c.rawKey = key.keyHash ∧
    normalizeAPIKeyKind c.input.keyKind = .ok key.principal.keyKind ∧
    normalizeAPIKeyScopes c.input.scopes = .ok key.principal.scopes := by
  obtain ⟨c, hc, hrow, hhash, hkind, hscopes, hjoined⟩ := h
  have hpersisted := (normalizePersistedAPIKeyKind_of_ok hkind).1
  have hparsed := parseAPIKeyScopes_join hscopes
  rw [← hjoined, hrow] at hparsed
  rw [hrow] at hpersisted hkind
  refine ⟨c, hc, by rw [hrow]; rfl, by rw [hrow]; rfl, by rw [← hhash, hrow], ?_, ?_⟩
  · rw [APIKey.principal, hpersisted]
    exact hkind
  · rw [APIKey.principal, hparsed]
    exact hscopes

/-- A request is served. -/
theorem KeyInv.serve (h : KeyInv hashAPIKey s) (hcheck : s.checks i = some (.validated request key))
    (hauthorize : request.target.authorize key.principal = .ok ()) :
    ServedRequest.Sound hashAPIKey s ⟨request, key.principal⟩ := by
  obtain ⟨hmade, hfresh, m, n, hread, hactive⟩ := h.checks i _ hcheck
  obtain ⟨c, -, -, -, -, hkind, hscopes⟩ := hmade.principal
  refine ⟨key, rfl, hmade, hfresh, ⟨m, n, hread, hactive⟩,
    KeyTarget.permits_of_authorize ?_ ?_ hauthorize⟩
  · rw [APIKey.principal, normalizePersistedAPIKeyKind]
    dsimp only
    split
    · assumption
    · decide
  · intro hwrite
    rcases normalizeAPIKeyScopes_cases hscopes with hsame | hsame
    · rw [hsame]
      exact List.mem_singleton_self _
    · rw [hsame]
      exact List.mem_cons_self

theorem KeyInv.act (h : KeyInv hashAPIKey s) {e : APIKeyEvent} (hfits : e.Fits s)
    (hact : s.act hashAPIKey e = some t) :
    KeyStep hashAPIKey s t := by
  have hsame : ∀ key ∈ s.tables.keys, ∃ old ∈ s.tables.keys,
      old.id = key.id ∧ { old with lastUsedAt := none } = { key with lastUsedAt := none } :=
        fun key hkey => ⟨key, hkey, rfl, rfl⟩
  have hhistory : ∀ t', s.created ⊆ t'.created → s.clock.nanos ≤ t'.clock.nanos →
      KeyHistory s (s.record t') :=
    fun t' hcreated hclock => record_history hcreated hclock
  cases e with
  | prepare i userID role input =>
    rw [APIKeySystem.act] at hact
    split at hact
    · rename_i keyKind scopes _ hprepare
      obtain rfl := Option.some.inj hact
      refine ⟨⟨List.Subset.refl _, le_refl _, le_refl _⟩, h.made, fun id hid => .inl hid, ?_,
        fun j c hc => .inl hc,
        fun x hx => .inl hx⟩
      exact forall_set h.pending fun p hp => Option.some.inj hp ▸ prepareAPIKey_ok hprepare
    · cases hact
  | insert i bytes =>
    rw [APIKeySystem.act] at hact
    obtain ⟨pending, hpending, rfl⟩ := Option.map_eq_some_iff.1 hact
    exact h.insert hpending bytes
  | delete userID keyID =>
    obtain rfl := Option.some.inj hact
    exact h.keep (le_refl _) rfl rfl rfl (fun key hkey => hsame key (List.mem_filter.1 hkey).1)
      (fun j c hc => .inl hc) (fun x hx => .inl hx)
  | others users =>
    obtain rfl := Option.some.inj hact
    exact h.keep (le_refl _) rfl rfl rfl (fun key hkey => hsame key (List.mem_filter.1 hkey).1)
      (fun j c hc => .inl hc) (fun x hx => .inl hx)
  | present i target header =>
    rw [APIKeySystem.act] at hact
    split at hact
    · obtain rfl := Option.some.inj hact
      refine h.goTo s.clock (le_refl _) fun c hc => ?_
      obtain rfl := Option.some.inj hc
      exact ⟨(List.prefix_append _ _).length_le, le_refl _⟩
    · cases hact
  | find i =>
    rw [APIKeySystem.act] at hact
    split at hact
    · rename_i request hcheck
      obtain ⟨hbegun, hclock⟩ := h.checks i _ hcheck
      obtain rfl := Option.some.inj hact
      -- the row is read by its hash, so the key presented is the stored one as it is now
      refine h.goTo s.clock (le_refl _) fun c hc => ?_
      obtain ⟨key, hfind, rfl⟩ := Option.map_eq_some_iff.1 hc
      have hkey := List.mem_of_find?_eq_some hfind
      have hhash : key.keyHash = hashAPIKey request.rawKey := by simpa using List.find?_some hfind
      exact ⟨hclock, (h.made key hkey).mono (hhistory _ (List.Subset.refl _) (le_refl _)), _,
        read_now hbegun hkey hhash⟩
    · cases hact
  | checkExpiry i now =>
    rw [APIKeySystem.act] at hact
    split at hact
    · rename_i request key hcheck
      obtain ⟨hclock, hmade, m, hread⟩ := h.checks i _ hcheck
      obtain rfl := Option.some.inj hact
      -- the reading the expiry is compared with is no earlier than the row
      refine h.goTo now hfits fun c hc => ?_
      have hgrown :=
        hhistory
          { s.goTo i (if key.expiresAt.any (·.before now) then none
          else some (.unexpired request key)) with clock := now }
        (List.Subset.refl _) hfits
      split at hc
      · cases hc
      · rename_i hexpired
        obtain rfl := Option.some.inj hc
        refine ⟨hmade.mono hgrown, ⟨m, hread.mono hgrown⟩, now, hclock.trans hfits,
          fun expiresAt hexpires => ?_⟩
        simpa [hexpires] using hexpired
    · cases hact
  | checkActive i =>
    rw [APIKeySystem.act] at hact
    split at hact
    · rename_i request key hcheck
      obtain ⟨hmade, ⟨m, hread⟩, hfresh⟩ := h.checks i _ hcheck
      obtain rfl := Option.some.inj hact
      refine h.goTo s.clock (le_refl _) fun c hc => ?_
      have hgrown :=
        hhistory (s.goTo i (if (s.tables.users.find? (·.id = key.userID)).any (·.status = "active") then
        some (.active request key) else none)) (List.Subset.refl _) (le_refl _)
      split at hc
      · rename_i hactive
        obtain rfl := Option.some.inj hc
        -- the owner is looked up in the tables of this instant, which the history keeps
        obtain ⟨user, hfind, hstatus⟩ := (Option.any_eq_true _ _).1 hactive
        have hlt := (List.getElem?_eq_some_iff.1 hread.2.2.choose_spec.1).1
        refine ⟨hmade.mono hgrown, hfresh, m, s.past.length, hread.mono hgrown, hlt.le, s.tables,
          record_now s _, user,
          List.mem_of_find?_eq_some hfind, ?_, of_decide_eq_true hstatus⟩
        simpa using List.find?_some hfind
      · cases hc
    · cases hact
  | touch i now succeeded =>
    rw [APIKeySystem.act] at hact
    split at hact
    · rename_i request key hcheck
      have hsound := h.checks i _ hcheck
      obtain rfl := Option.some.inj hact
      -- only `last_used_at` moves, whether the UPDATE goes through or not
      refine h.keep hfits rfl rfl rfl ?_ ?_ (fun x hx => .inl hx)
      · intro row hrow
        rcases mem_updateWhere_cases hrow with ⟨hrow, -⟩ | ⟨old, hold, -, rfl⟩
        · exact hsame row hrow
        · exact ⟨old, hold, rfl, rfl⟩
      · refine forall_set (P := fun j c => s.checks j = some c ∨ c.Sound hashAPIKey (s.record _))
          (fun j c hc => .inl hc) fun c hc => .inr ?_
        obtain rfl := Option.some.inj hc
        have hvalidated : KeyCheck.Sound hashAPIKey s (.validated request key) := hsound
        exact hvalidated.mono (hhistory _ (List.Subset.refl _) hfits)
    · cases hact
  | serve i =>
    rw [APIKeySystem.act] at hact
    split at hact
    · rename_i request key hcheck
      split at hact
      · obtain rfl := Option.some.inj hact
        exact h.goTo s.clock (le_refl _) fun c hc => by cases hc
      · rename_i hauthorize
        obtain rfl := Option.some.inj hact
        have hsound := h.serve hcheck hauthorize
        refine h.keep (le_refl _) rfl rfl rfl hsame ?_ ?_
        · exact forall_set (P := fun j c => s.checks j = some c ∨ c.Sound hashAPIKey (s.record _))
            (fun j c hc => .inl hc)
            fun c hc => by cases hc
        · intro x hx
          rcases List.mem_append.1 hx with hx | hx
          · exact .inl hx
          · obtain rfl := List.mem_singleton.1 hx
            exact .inr (hsound.mono (hhistory _ (List.Subset.refl _) (le_refl _)))
    · cases hact
  | fail i =>
    obtain rfl := Option.some.inj hact
    exact h.goTo s.clock (le_refl _) fun c hc => by cases hc

theorem KeyInv.step (h : KeyInv hashAPIKey s) (e : APIKeyEvent) (hfits : e.Fits s)
    (hstep : s.step hashAPIKey e = some t) :
    KeyInv hashAPIKey t := by
  obtain ⟨after, hact, rfl⟩ := Option.map_eq_some_iff.1 hstep
  exact h.step_of (h.act hfits hact)

theorem KeyInv.initial (users : List SessionUser) (clock : Time) :
    KeyInv hashAPIKey (.initial users clock) where
  made _ hkey := absurd hkey List.not_mem_nil
  removed _ hr := absurd hr List.not_mem_nil
  fresh _ hid := absurd hid List.not_mem_nil
  pending _ p hp := absurd hp.symm (Option.some_ne_none p)
  checks _ c hc := absurd hc.symm (Option.some_ne_none c)
  served _ hx := absurd hx List.not_mem_nil

/-- Over every run: a request reaches a handler or a tool only for a key of a kind and with scopes
that permit it, which are those it was made with; while the request ran, its row was there, it had
not expired, and after that its owner was active. A request that begins after a key was removed is
not served for it. -/
theorem api_key_requests (hashAPIKey : String → String) (users : List SessionUser) (clock : Time)
    (s : APIKeySystem)
    (h : Path (APIKeySystem.step hashAPIKey) (fun s e => e.Fits s) (.initial users clock) s) :
    ∀ x ∈ s.served, x.request.target.Permits x.principal ∧
      (∃ c ∈ s.created, c.row.userID = x.principal.userID ∧ c.row.id = x.principal.keyID ∧
        hashAPIKey c.rawKey = hashAPIKey x.request.rawKey ∧
          normalizeAPIKeyKind c.input.keyKind = .ok x.principal.keyKind ∧
        normalizeAPIKeyScopes c.input.scopes = .ok x.principal.scopes) ∧
      (∃ key m n, x.principal = key.principal ∧ s.Read hashAPIKey x.request key m ∧
        Unexpired x.request key ∧ s.OwnerActive key m n) ∧
      ∀ r ∈ s.removed, r.1 = x.principal.keyID → x.request.begun ≤ r.2 := by
  have hinv : KeyInv hashAPIKey s :=
    h.invariant (KeyInv hashAPIKey) (fun _ e _ hinv hfits hstep => hinv.step e hfits hstep)
      (.initial users clock)
  intro x hx
  obtain ⟨key, hprincipal, hmade, hfresh, ⟨m, n, hread, hactive⟩, hpermits⟩ := hinv.served x hx
  obtain ⟨c, hc, huser, hid, hhash, hkind, hscopes⟩ := hmade.principal
  rw [← hprincipal] at huser hid hkind hscopes
  refine ⟨hpermits, ⟨c, hc, huser, hid, hhash.trans hread.2.1, hkind, hscopes⟩,
    ⟨key, m, n, hprincipal, hread, hfresh, hactive⟩, ?_⟩
  intro r hr hsame
  obtain ⟨hbegun, -, tables, htables, hkey⟩ := hread
  by_contra hlate
  refine (hinv.removed r hr).2.2.2 m tables (by omega) htables (List.mem_map.2 ⟨key, hkey, ?_⟩)
  rw [hsame, hprincipal]
  rfl

end Steps

/-- An integration makes a subscription with its key, and tries again with a key that was deleted and
with one that may only read. -/
def sampleAPIKeyEvents : List APIKeyEvent :=
  let write : APIKeyBytes := ⟨List.replicate 32 1, by decide⟩
  let read : APIKeyBytes := ⟨List.replicate 32 2, by decide⟩
  let subscriptions : KeyTarget := .route ⟨.protectedRoutes, .post, "/api/subscriptions"⟩
  let request (i : Nat) (bytes : APIKeyBytes) : List APIKeyEvent :=
    [.present i subscriptions (generateAPIKey bytes), .find i, .checkExpiry i ⟨5, 0⟩,
     .checkActive i, .touch i ⟨6, 0⟩ true, .serve i]
  [.prepare 0 1 "user" ⟨" sync ", "API_Integration ", some ⟨9, 0⟩, ["Write", "read"]⟩, .insert 0 write,
   .prepare 1 1 "user" ⟨"view", "api_integration", none, []⟩, .insert 1 read] ++
  request 0 write ++ [.delete 1 1] ++ (request 1 write).take 2 ++ (request 2 read).map (fun
    | .checkExpiry i _ => .checkExpiry i ⟨7, 0⟩
    | .touch i _ _ => .touch i ⟨8, 0⟩ false
    | e => e)

theorem api_key_requests_sample :
    ∃ s : APIKeySystem, s.created.length = 2 ∧ s.removed.length = 1 ∧ s.served.length = 1 ∧
      ∀ x ∈ s.served, x.request.target.Permits x.principal ∧ ∀ r ∈ s.removed,
        r.1 = x.principal.keyID → x.request.begun ≤ r.2 := by
  have hrun : (exec (APIKeySystem.step (fun rawKey => "#" ++ rawKey)) (fun s e => e.Fits s)
      (.initial [⟨1, "root", "root@example.com", "hash", "admin", "active", false⟩] ⟨0, 0⟩)
        sampleAPIKeyEvents).any
      (fun s => s.created.length = 2 ∧ s.removed.length = 1 ∧ s.served.length = 1) = true := by
    decide +kernel
  obtain ⟨s, hs, hlengths⟩ := (Option.any_eq_true _ _).1 hrun
  obtain ⟨hcreated, hremoved, hserved⟩ := of_decide_eq_true hlengths
  refine ⟨s, hcreated, hremoved, hserved, fun x hx => ?_⟩
  obtain ⟨hpermits, -, -, hbegun⟩ := api_key_requests _ _ _ s (Path.of_exec hs) x hx
  exact ⟨hpermits, hbegun⟩

end Subdux
