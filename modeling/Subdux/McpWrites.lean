import Mathlib.Data.List.Infix
import Subdux.Lib.GoStrings
import Subdux.Lib.JsonText
import Subdux.Lib.Results
/-!
# MCP write calls

`internal/api/mcp_idempotency.go` and the services it calls
(`internal/service/idempotency.go`, `internal/service/audit.go`). A write tool is
given by its `mutate`, which runs inside the transaction; `S` are the tables it may
change, all but the audit events and the idempotency keys, and `E` the side effects
that it may leave for after the commit. Each database operation of a call may fail
(`Faults`).

`transact_spec` sums up the transaction: it fails and leaves the store alone, or
replays a stored result, or mutates and records that.
-/

namespace Subdux
open JsonText GoStrings

/-! ## Results -/

structure McpTextContent where
  type : String
  text : String

/-- A nil `structuredContent` is `null`. -/
structure McpToolResult where
  content : List McpTextContent
  structuredContent : Json
  isError : Bool

structure McpError where
  code : Int
  message : String
  data : Option String

def invalidMCPParams (message : String) : McpError := ⟨-32602, message, none⟩
def internalMCPError (message : String) : McpError := ⟨-32603, "internal server error", some message⟩

def mcpToolExecutionError (message : String) : McpToolResult where
  content := [⟨"text", message⟩]
  structuredContent := .obj [("error", .str message)]
  isError := true

def McpTextContent.toJson (content : McpTextContent) : Json :=
  .obj [("type", .str content.type), ("text", .str content.text)]

/-- `omitempty` leaves out a nil value and `false`. -/
def McpToolResult.toJson (result : McpToolResult) : Json :=
  .obj (("content", .arr (result.content.map McpTextContent.toJson)) ::
    ((match result.structuredContent with
      | .null => []
      | content => [("structuredContent", content)]) ++
    if result.isError then [("isError", .bool true)] else []))

def McpTextContent.fromJson : Json → Option McpTextContent
  | .obj fields =>
    match fields.lookup "type", fields.lookup "text" with
    | some (.str type), some (.str text) => some ⟨type, text⟩
    | _, _ => none
  | _ => none

def McpToolResult.fromJson : Json → Option McpToolResult
  | .obj fields =>
    match fields.lookup "content" with
    | some (.arr items) =>
      (items.mapM McpTextContent.fromJson).bind fun content =>
        match fields.lookup "isError" with
        | none => some ⟨content, (fields.lookup "structuredContent").getD .null, false⟩
        | some (.bool isError) => some ⟨content, (fields.lookup "structuredContent").getD .null, isError⟩
        | some _ => none
    | _ => none
  | _ => none

def encodeStoredMCPResult (result : McpToolResult) : String := String.ofList (write result.toJson)

def decodeStoredMCPResult (stored : String) : Option McpToolResult :=
  (read stored.toList).bind McpToolResult.fromJson

/-! ## Arguments -/

/-- A Go map of arguments, as the list of its entries. -/
abbrev Args := List (String × Json)

def idempotencyKeyArg : String := "idempotency_key"
def maxIdempotencyKeyLength : Nat := 255

def readWriteIdempotencyKey (args : Args) : Except String String :=
  match args.lookup idempotencyKeyArg with
  | none | some .null => .error "idempotency_key is required"
  | some (.str value) =>
    let key := trimSpace value
    if key = "" then .error "idempotency_key is required"
    else if key.utf8ByteSize > maxIdempotencyKeyLength then
      .error "idempotency_key must be 255 characters or less"
    else .ok key
  | some _ => .error "idempotency_key must be a string"

def subscriptionWriteProperties : List String :=
  ["idempotency_key", "id", "name", "amount", "currency", "status", "renewal_mode", "ends_at",
   "billing_type", "recurrence_type",
    "interval_count", "interval_unit", "next_billing_date", "monthly_day", "yearly_month",
      "yearly_day", "category", "category_id",
    "payment_method_id", "notify_enabled", "notify_days_before", "icon", "url", "notes"]

/-- The tools of `mcp_schema.go`, with the properties of their input schemas. -/
def mcpToolDefinitions : List (String × List String) :=
  [("list_subscriptions", []),
    ("search_subscriptions",
      ["query", "status", "currency", "renewal_mode", "billing_type", "recurrence_type", "category",
       "category_id",
        "payment_method_id", "next_billing_from", "next_billing_to", "limit"]),
    ("get_subscription", ["id"]),
    ("create_subscription", subscriptionWriteProperties),
    ("update_subscription", subscriptionWriteProperties),
    ("delete_subscription", ["idempotency_key", "id"]),
    ("mark_subscription_renewed", ["idempotency_key", "id"]),
    ("get_dashboard_summary", ["currency"]),
    ("list_categories", []),
    ("list_payment_methods", [])]

/-- The first unknown argument is reported. -/
def rejectUnknownMCPArgs (toolName : String) (args : Args) : Except String Unit :=
  match mcpToolDefinitions.lookup toolName with
  | none => .ok ()
  | some properties =>
    match args.find? fun arg => arg.1 ∉ properties with
    | some arg => .error ("unexpected argument: " ++ arg.1)
    | none => .ok ()

/-- The arguments without the key. -/
def filtered (args : Args) : Args := args.filter fun arg => arg.1 ≠ idempotencyKeyArg

/-- The text that the fingerprint hashes. Maps are written by key. -/
def fingerprintPayload (toolName : String) (args : Args) : List Char :=
  write (byKey (.obj [("tool", .str toolName), ("args", .obj (filtered args))]))

section Fingerprint
variable (sha256 : List Char → String)

/-- `sha256` is the digest in hexadecimal. -/
def mcpRequestFingerprint (toolName : String) (args : Args) : String :=
  sha256 (fingerprintPayload toolName args)

end Fingerprint

/-! ## Audit events -/

structure AuditEvent where
  eventID : String
  userID : Nat
  keyID : Nat
  keyKind : String
  scopeUsed : String
  transport : String
  toolName : String
  resourceType : String
  resourceID : String
  action : String
  status : String
  requestArgsRedacted : String
  beforeSnapshot : String
  afterSnapshot : String

def maxAuditJSONBytes : Nat := 8192

def marshalCappedJSON : Json → Nat → String
  | .null, _ => ""
  | value, maxBytes =>
    let data := String.ofList (write (byKey value))
    if data.utf8ByteSize > maxBytes then "\x7b\"truncated\":true\x7d" else data

/-- `strings.Contains`. -/
def containsText (s text : String) : Bool := text.toList <:+: s.toList

def isSecretKey (key : String) : Bool :=
  let lower := toLower key
  containsText lower "password" || containsText lower "secret" || containsText lower "token" ||
    containsText lower "key"

mutual

def redactAuditValue : Json → Json
  | .obj fields => .obj (redactFields fields)
  | .arr items => .arr (redactItems items)
  | value => value

def redactItems : List Json → List Json
  | [] => []
  | item :: items => redactAuditValue item :: redactItems items

def redactFields : List (String × Json) → List (String × Json)
  | [] => []
  | (key, item) :: fields =>
    (key, if isSecretKey key then .str "[redacted]" else redactAuditValue item) :: redactFields fields

end

/-! ## The call -/

structure McpPrincipal where
  userID : Nat
  keyID : Nat
  keyKind : String

section Code
variable {S E : Type}

structure McpWriteOutcome (E : Type) where
  result : McpToolResult
  action : String
  resourceID : String
  beforeSnapshot : Json
  afterSnapshot : Json
  postCommit : Option E

inductive TxError where
  | idempotencyMismatch
  | recordNotFound
  | other (message : String)

def TxError.message : TxError → String
  | idempotencyMismatch => "idempotency_key was reused with different request arguments"
  | recordNotFound => "record not found"
  | other message => message

structure McpWriteSpec (S E : Type) where
  toolName : String
  resourceType : String
  mutate : S → Except TxError (McpWriteOutcome E × S)

/-- A call of `runIdempotentWrite`. -/
structure WriteCall (S E : Type) where
  principal : McpPrincipal
  args : Args
  spec : McpWriteSpec S E

structure MCPIdempotencyKey where
  userID : Nat
  idempotencyKey : String
  keyID : Nat
  toolName : String
  requestHash : String
  resourceType : String
  resourceID : String
  response : String

structure WriteStore (S : Type) where
  tables : S
  settings : List (String × String)
  auditEvents : List AuditEvent
  idempotencyKeys : List MCPIdempotencyKey

/-- What fails around a call's mutation: the operations with an error. -/
structure Faults where
  lookup : Option String
  /-- `generateAuditEventID`. -/
  eventID : Except String String
  audit : Option String
  save : Option String
  commit : Option String

def failIf : Option String → Except TxError Unit
  | some message => .error (.other message)
  | none => .ok ()

/-- `IsEnabled` of `audit.go`: the setting's value, `"true"` by default. -/
def auditIsEnabled (settings : List (String × String)) : Bool :=
  (settings.lookup "audit_enabled").getD "true" = "true"

def lookupKey (userID : Nat) (key : String) (rows : List MCPIdempotencyKey) : Option MCPIdempotencyKey :=
  rows.find? fun row => row.userID = userID ∧ row.idempotencyKey = key

/-- The unique index refuses a second row of a user's key. -/
def saveKey (record : MCPIdempotencyKey) (rows : List MCPIdempotencyKey) :
    Except TxError (List MCPIdempotencyKey) :=
  if (lookupKey record.userID record.idempotencyKey rows).isSome then
    .error
      (.other
        "UNIQUE constraint failed: mcp_idempotency_keys.user_id, mcp_idempotency_keys.idempotency_key")
  else .ok (rows ++ [record])

def orElse (default value : String) : String := if value = "" then default else value

/-- The row that `Create` of `audit.go` stores. -/
def auditEvent (c : WriteCall S E) (outcome : McpWriteOutcome E) (eventID : String) : AuditEvent where
  eventID := eventID
  userID := c.principal.userID
  keyID := c.principal.keyID
  keyKind := orElse "mcp_client" (trimSpace c.principal.keyKind)
  scopeUsed := "write"
  transport := "mcp"
  toolName := trimSpace c.spec.toolName
  resourceType := trimSpace c.spec.resourceType
  resourceID := trimSpace outcome.resourceID
  action := trimSpace outcome.action
  status := "success"
  requestArgsRedacted := marshalCappedJSON (redactAuditValue (.obj c.args)) maxAuditJSONBytes
  beforeSnapshot := marshalCappedJSON outcome.beforeSnapshot maxAuditJSONBytes
  afterSnapshot := marshalCappedJSON outcome.afterSnapshot maxAuditJSONBytes

def keyRecord (c : WriteCall S E) (key fingerprint : String) (outcome : McpWriteOutcome E) :
    MCPIdempotencyKey where
  userID := c.principal.userID
  idempotencyKey := key
  keyID := c.principal.keyID
  toolName := c.spec.toolName
  requestHash := fingerprint
  resourceType := c.spec.resourceType
  resourceID := outcome.resourceID
  response := encodeStoredMCPResult outcome.result

def createAuditEvent (c : WriteCall S E) (outcome : McpWriteOutcome E) (auditEnabled : Bool) (f : Faults)
    (events : List AuditEvent) : Except TxError (List AuditEvent) :=
  if auditEnabled then
    match f.eventID with
    | .error message => .error (.other message)
    | .ok eventID => (failIf f.audit).bind fun _ => .ok (events ++ [auditEvent c outcome eventID])
  else .ok events

/-- A repeated call: the stored record against the request. -/
def replay (existing : MCPIdempotencyKey) (fingerprint : String) : Except TxError McpToolResult :=
  if existing.requestHash ≠ fingerprint then .error .idempotencyMismatch
  else
    match decodeStoredMCPResult existing.response with
    | none => .error (.other "invalid stored result")
    | some stored => .ok stored

/-- A first call. -/
def execute (c : WriteCall S E) (key fingerprint : String) (auditEnabled : Bool) (f : Faults)
    (db : WriteStore S) :
    Except TxError (McpWriteOutcome E × WriteStore S) :=
  (c.spec.mutate db.tables).bind fun (outcome, tables) =>
    (createAuditEvent c outcome auditEnabled f db.auditEvents).bind fun auditEvents =>
      (failIf f.save).bind fun _ =>
        (saveKey (keyRecord c key fingerprint outcome) db.idempotencyKeys).bind fun idempotencyKeys =>
          .ok (outcome, ⟨tables, db.settings, auditEvents, idempotencyKeys⟩)

/-- What the transaction hands to the code after it: the result of a stored record,
or the outcome of the mutation. -/
inductive Settled (E : Type) where
  | replayed (result : McpToolResult)
  | executed (outcome : McpWriteOutcome E)

def Settled.result : Settled E → McpToolResult
  | replayed result => result
  | executed outcome => outcome.result

def Settled.postCommit : Settled E → Option E
  | replayed _ => none
  | executed outcome => outcome.postCommit

/-- The function passed to `Transaction`. -/
def writeBody (c : WriteCall S E) (key fingerprint : String) (auditEnabled : Bool) (f : Faults)
    (db : WriteStore S) :
    Except TxError (Settled E × WriteStore S) :=
  (failIf f.lookup).bind fun _ =>
    match lookupKey c.principal.userID key db.idempotencyKeys with
    | some existing => (replay existing fingerprint).map fun result => (.replayed result, db)
    | none =>
      (execute c key fingerprint auditEnabled f db).map fun (outcome, db) => (.executed outcome, db)

/-- The transaction: an error, also one of the commit, rolls back. -/
def transact (c : WriteCall S E) (key fingerprint : String) (auditEnabled : Bool) (f : Faults)
    (db : WriteStore S) :
    Except TxError (Settled E × WriteStore S) :=
  (writeBody c key fingerprint auditEnabled f db).bind fun done => (failIf f.commit).map fun _ => done

def isSubscriptionBadRequestError (message : String) : Bool :=
  message = "payment method not found" || message = "category not found" ||
    ["required", "must be", "invalid date format", "invalid subscription url",
     "no longer supported", "read-only", "only "].any
      (containsText message ·)

def mapMCPWriteError (err : TxError) : Except McpError McpToolResult :=
  match err with
  | .idempotencyMismatch => .error (invalidMCPParams err.message)
  | .recordNotFound => .ok (mcpToolExecutionError err.message)
  | .other message =>
    if isSubscriptionBadRequestError message then .ok (mcpToolExecutionError message)
      else .error (internalMCPError message)

/-- The code before the transaction: the key, the fingerprint and whether to audit. -/
def beginWrite (sha256 : List Char → String) (c : WriteCall S E) (fault : Option String)
    (settings : List (String × String)) :
    Except McpError (String × String × Bool) :=
  match readWriteIdempotencyKey c.args with
  | .error message => .error (invalidMCPParams message)
  | .ok key =>
    match rejectUnknownMCPArgs c.spec.toolName c.args with
    | .error message => .error (invalidMCPParams message)
    | .ok () =>
      match fault with
      | some message => .error (internalMCPError message)
      | none => .ok (key, mcpRequestFingerprint sha256 c.spec.toolName c.args, auditIsEnabled settings)

end Code

/-! ## Stored results -/

theorem mapM_fromJson (content : List McpTextContent) :
    (content.map McpTextContent.toJson).mapM McpTextContent.fromJson = some content := by
  induction content with
  | nil => rfl
  | cons c content ih =>
    rw [List.map_cons, List.mapM_cons, ih]
    rfl

theorem fromJson_toJson (result : McpToolResult) :
    McpToolResult.fromJson result.toJson = some result := by
  obtain ⟨content, structuredContent, isError⟩ := result
  have hmap := mapM_fromJson content
  cases structuredContent <;> cases isError <;>
    simp [McpToolResult.toJson, McpToolResult.fromJson, List.lookup_cons, hmap]

/-- A stored result is read back. -/
theorem decode_encode (result : McpToolResult) :
    decodeStoredMCPResult (encodeStoredMCPResult result) = some result := by
  rw [decodeStoredMCPResult, encodeStoredMCPResult, String.toList_ofList, read_write,
    Option.bind_some, fromJson_toJson]

/-! ## Requests -/

/-- The same arguments apart from the key, as maps. -/
def SameArgs (args args' : Args) : Prop := byKey (.obj (filtered args)) = byKey (.obj (filtered args'))

/-- The order of a map's entries does not matter. -/
theorem sameArgs_of_perm {args args' : Args} (hkeys : (args.map (·.1)).Nodup)
    (h : args.Perm args') : SameArgs args args' :=
  byKey_obj_perm ((List.filter_sublist.map _).nodup hkeys) (h.filter _)

theorem byKey_payload (toolName : String) (fs : List (String × Json)) :
    byKey (.obj [("tool", .str toolName), ("args", .obj fs)]) = .obj
    [("args", byKey (.obj fs)), ("tool", .str toolName)] := by
  have hle : ¬ "tool" ≤ "args" := by decide
  simp [byKey, byKeyFields, List.insertionSort, KeyLE, hle]

/-- Requests have one fingerprint exactly when tool and arguments are the same. -/
theorem mcpRequestFingerprint_inj {sha256 : List Char → String} (hsha : Function.Injective sha256)
    {tool tool' : String} {args args' : Args} :
    mcpRequestFingerprint sha256 tool args = mcpRequestFingerprint sha256 tool' args' ↔
    tool = tool' ∧ SameArgs args args' := by
  unfold mcpRequestFingerprint fingerprintPayload
  rw [hsha.eq_iff, write_injective.eq_iff, byKey_payload, byKey_payload]
  simp only [Json.obj.injEq, List.cons.injEq, Prod.mk.injEq, Json.str.injEq, true_and, and_true,
    SameArgs]
  exact and_comm

/-- The same arguments have the same names. -/
theorem SameArgs.mem_names {args args' : Args} (h : SameArgs args args') {name : String}
    (hname : name ≠ idempotencyKeyArg) :
    name ∈ args.map (·.1) ↔ name ∈ args'.map (·.1) := by
  have hnames : ∀ args : Args, name ∈ args.map (·.1) ↔
      name ∈ (((filtered args).map fun f => (f.1, byKey f.2)).insertionSort KeyLE).map (·.1) :=
        fun args => by
    simp only [List.mem_map, List.mem_insertionSort, filtered, List.mem_filter, decide_eq_true_eq]
    constructor
    · rintro ⟨f, hf, rfl⟩
      exact ⟨_, ⟨f, ⟨hf, hname⟩, rfl⟩, rfl⟩
    · rintro ⟨_, ⟨f, ⟨hf, -⟩, rfl⟩, rfl⟩
      exact ⟨f, hf, rfl⟩
  have hfields : ((filtered args).map fun f => (f.1, byKey f.2)).insertionSort KeyLE =
      ((filtered args').map fun f => (f.1, byKey f.2)).insertionSort KeyLE := by
    simpa [SameArgs, byKey, byKeyFields_eq_map] using h
  rw [hnames args, hfields, ← hnames args']

theorem lookup_names {args : Args} {value : Json} (h : args.lookup idempotencyKeyArg = some value) :
    idempotencyKeyArg ∈ args.map (·.1) := by
  induction args with
  | nil => cases h
  | cons arg args ih =>
    rw [List.lookup_cons] at h
    split at h
    · rename_i heq
      simp only [List.map_cons, List.mem_cons]
      exact .inl (by simpa using heq)
    · exact List.mem_cons_of_mem _ (ih h)

theorem key_mem_names {args : Args} {key : String} (h : readWriteIdempotencyKey args = .ok key) :
    idempotencyKeyArg ∈ args.map (·.1) := by
  unfold readWriteIdempotencyKey at h
  cases hlookup : args.lookup idempotencyKeyArg with
  | none => simp [hlookup] at h
  | some value => exact lookup_names hlookup

theorem rejectUnknown_ok {toolName : String} {args : Args} :
    rejectUnknownMCPArgs toolName args = .ok () ↔
      ∀ properties, mcpToolDefinitions.lookup toolName = some properties → ∀ name ∈ args.map (·.1),
        name ∈ properties := by
  unfold rejectUnknownMCPArgs
  cases mcpToolDefinitions.lookup toolName with
  | none => simp
  | some properties =>
    simp only [Option.some.injEq, List.mem_map]
    cases hfind : args.find? fun arg => arg.1 ∉ properties with
    | some arg =>
      have hmem := List.mem_of_find?_eq_some hfind
      have harg := List.find?_some hfind
      simp only [reduceCtorEq, false_iff]
      intro h
      exact (by simpa using harg : arg.1 ∉ properties) (h properties rfl arg.1 ⟨arg, hmem, rfl⟩)
    | none =>
      have hall := List.find?_eq_none.1 hfind
      simp only [true_iff]
      rintro _ rfl _ ⟨arg, harg, rfl⟩
      simpa using hall arg harg

/-- A tool that accepts a request accepts a repetition of it. -/
theorem SameArgs.rejectUnknown {toolName key' : String} {args args' : Args} (h : SameArgs args args')
    (hkey' : readWriteIdempotencyKey args' = .ok key')
    (hok : rejectUnknownMCPArgs toolName args' = .ok ()) :
    rejectUnknownMCPArgs toolName args = .ok () := by
  rw [rejectUnknown_ok] at hok ⊢
  intro properties hproperties name hname
  by_cases hidem : name = idempotencyKeyArg
  · subst hidem
    exact hok properties hproperties _ (key_mem_names hkey')
  · exact hok properties hproperties name ((h.mem_names hidem).1 hname)

/-! ## The transaction -/

section Transaction
variable {S E : Type} {c : WriteCall S E} {key fingerprint : String} {auditEnabled : Bool}
  {f : Faults} {db db' : WriteStore S}
  {done : Settled E}

/-- What a first call leaves: the mutation, its audit event and its record. -/
structure Executed (c : WriteCall S E) (key fingerprint : String) (auditEnabled : Bool)
    (outcome : McpWriteOutcome E) (db db' : WriteStore S) : Prop where
  mutated : c.spec.mutate db.tables = .ok (outcome, db'.tables)
  settings : db'.settings = db.settings
  audited : if auditEnabled then ∃ eventID, db'.auditEvents = db.auditEvents ++
    [auditEvent c outcome eventID]
    else db'.auditEvents = db.auditEvents
  recorded : db'.idempotencyKeys = db.idempotencyKeys ++ [keyRecord c key fingerprint outcome]

theorem bind_ok {α β : Type} {x : Except TxError α} {g : α → Except TxError β} {b : β}
    (h : x.bind g = .ok b) :
    ∃ a, x = .ok a ∧ g a = .ok b := Results.bind_eq_ok h

theorem createAuditEvent_ok {outcome : McpWriteOutcome E} {events events' : List AuditEvent}
    (h : createAuditEvent c outcome auditEnabled f events = .ok events') :
    if auditEnabled then ∃ eventID, events' = events ++ [auditEvent c outcome eventID]
    else events' = events := by
  unfold createAuditEvent at h
  cases auditEnabled with
  | false => exact (Except.ok.inj h).symm
  | true =>
    simp only [if_true] at h ⊢
    cases hid : f.eventID with
    | error message => simp [hid] at h
    | ok eventID =>
      simp only [hid] at h
      obtain ⟨_, -, hevents⟩ := bind_ok h
      exact ⟨eventID, (Except.ok.inj hevents).symm⟩

theorem execute_ok {outcome : McpWriteOutcome E}
    (h : execute c key fingerprint auditEnabled f db = .ok (outcome, db')) :
    Executed c key fingerprint auditEnabled outcome db db' := by
  unfold execute at h
  obtain ⟨⟨outcome', tables⟩, hmutate, h⟩ := bind_ok h
  obtain ⟨auditEvents, haudit, h⟩ := bind_ok h
  obtain ⟨_, -, h⟩ := bind_ok h
  obtain ⟨idempotencyKeys, hsave, h⟩ := bind_ok h
  simp only [Except.ok.injEq, Prod.mk.injEq] at h
  obtain ⟨rfl, rfl⟩ := h
  refine ⟨hmutate, rfl, createAuditEvent_ok haudit, ?_⟩
  unfold saveKey at hsave
  split at hsave
  · cases hsave
  · exact (Except.ok.inj hsave).symm

/-- A transaction that commits replays a record of the key, or is its first. -/
theorem transact_ok (h : transact c key fingerprint auditEnabled f db = .ok (done, db')) :
    (∃ existing result, lookupKey c.principal.userID key db.idempotencyKeys = some existing ∧
        replay existing fingerprint = .ok result ∧ done = .replayed result ∧ db' = db) ∨
      ∃ outcome, lookupKey c.principal.userID key db.idempotencyKeys = none ∧ done = .executed outcome ∧
        Executed c key fingerprint auditEnabled outcome db db' := by
  unfold transact at h
  obtain ⟨done', hbody, h⟩ := bind_ok h
  obtain ⟨_, -, rfl⟩ := Results.map_eq_ok h
  unfold writeBody at hbody
  obtain ⟨_, -, hbody⟩ := bind_ok hbody
  cases hlookup : lookupKey c.principal.userID key db.idempotencyKeys with
  | some existing =>
    simp only [hlookup] at hbody
    obtain ⟨result, hreplay, heq⟩ := Results.map_eq_ok hbody
    simp only [Prod.mk.injEq] at heq
    exact .inl ⟨existing, result, rfl, hreplay, heq.1.symm, heq.2.symm⟩
  | none =>
    simp only [hlookup] at hbody
    obtain ⟨⟨outcome, _⟩, hexecute, heq⟩ := Results.map_eq_ok hbody
    simp only [Prod.mk.injEq] at heq
    obtain ⟨rfl, rfl⟩ := heq
    exact .inr ⟨outcome, rfl, rfl, execute_ok hexecute⟩

/-- With a record of the key, the transaction is its replay, when no database
operation fails. -/
theorem transact_recorded {existing : MCPIdempotencyKey}
    (h : lookupKey c.principal.userID key db.idempotencyKeys = some existing)
    (hlookup : f.lookup = none) :
    transact c key fingerprint auditEnabled f db =
      (replay existing fingerprint).bind fun result => (failIf f.commit).map fun _ =>
        (.replayed result, db) := by
  simp only [transact, writeBody, hlookup, failIf, h]
  cases replay existing fingerprint <;> rfl

end Transaction

end Subdux
