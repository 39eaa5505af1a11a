import Subdux.ChannelConfig
/-!
# Secrets of channels

`sanitizeNotificationConfig` and `mergeNotificationConfigWithExistingSecrets` of
`internal/service/notification_channel_security.go`. Stored configs are given decrypted; one
that cannot be decrypted is `none`, as one that is no JSON. What `json.Marshal` writes is the
value with its fields by key, whose text says as much (`write_injective`).

The masking looks for the literal names of the secret fields, the decoder of the senders for
names in either case. `SecretHole` is a config with a hole where a sender reads a secret.
-/

namespace Subdux.Channels
open GoStrings JsonText Results

/-! ## The secret fields -/

def notificationChannelSecretFields : String → List String
  | "smtp" => ["password"]
  | "resend" => ["api_key"]
  | "telegram" => ["bot_token"]
  | "webhook" => ["secret"]
  | "gotify" => ["token"]
  | "ntfy" => ["token", "password"]
  | "bark" => ["device_key"]
  | "serverchan" => ["send_key"]
  | "feishu" => ["webhook_url", "secret"]
  | "wecom" => ["webhook_url"]
  | "dingtalk" => ["webhook_url", "secret"]
  | "pushdeer" => ["push_key"]
  | "pushplus" => ["token"]
  | "pushover" => ["token", "user"]
  | "napcat" => ["access_token"]
  | _ => []

def getNotificationChannelSecretFields (channelType : String) : List String :=
  notificationChannelSecretFields (toLower (trimSpace channelType))

/-- `strings.EqualFold(strings.TrimSpace(channelType), "webhook")`. -/
def isWebhook (channelType : String) : Bool := matchesField (trimSpace channelType) "webhook"

/-- A string that is not blank. -/
def isSet : Json → Bool
  | .str s => trimSpace s ≠ ""
  | _ => false

/-! ## Masking -/

section Mask
variable (env : ConfigEnv)

def parseNotificationConfigMap (config : Option Json) : Option (List (String × Json)) :=
  unmarshalMap env config

def mask (v : Json) : Json := if isSet v then .str "" else v

def maskEntries : Json → Json
  | .obj headers => .obj (headers.map fun f => (f.1, mask f.2))
  | v => v

/-- The keys whose values are masked. -/
def maskedKeys : Json → List String
  | .obj headers => (headers.filter fun f => isSet f.2).map (·.1)
  | _ => []

/-- The config with masked headers, and their keys. A key comes once. -/
def maskWebhookHeaders (config : List (String × Json)) : List (String × Json) × List String :=
  (config.map fun f => if f.1 = "headers" then (f.1, maskEntries f.2) else f,
   config.flatMap fun f => if f.1 = "headers" then maskedKeys f.2 else [])

/-- The config with masked fields, and their names. -/
def maskFields (secretFields : List String) (config : List (String × Json)) :
    List (String × Json) × List String :=
  (config.map fun f => if f.1 ∈ secretFields then (f.1, mask f.2) else f,
   (config.filter fun f => f.1 ∈ secretFields ∧ isSet f.2 = true).map (·.1))

def sortStrings (keys : List String) : List String := keys.insertionSort (· ≤ ·)

/-- `sanitizeNotificationConfig`: the config, the secret fields that are set, and the headers that
are. -/
def sanitizeNotificationConfig (channelType : String) (config : Option Json) :
    Json × List String × List String :=
  match parseNotificationConfigMap env config with
  | none => (.obj [], [], [])
  | some parsed =>
    let fields := maskFields (getNotificationChannelSecretFields channelType) parsed
    let headers := if isWebhook channelType then maskWebhookHeaders fields.1 else (fields.1, [])
    (byKey (.obj headers.1), sortStrings fields.2, sortStrings headers.2)

end Mask

/-! ## Merging -/

section Merge
variable (env : ConfigEnv)

/-- The incoming config after the pass over one secret field. -/
def mergeSecret (existing : List (String × Json)) (clearedFields : List String)
    (incoming : List (String × Json)) (field : String) :
    List (String × Json) :=
  if field ∈ clearedFields then setAt field (.str "") incoming
  else
    match valueAt field incoming with
    | none =>
      match valueAt field existing with
      | some rawExisting => setAt field rawExisting incoming
      | none => incoming
    | some (.str incomingValue) =>
      if trimSpace incomingValue ≠ "" then incoming
      else
        match valueAt field existing with
        | some (.str existingValue) =>
          if trimSpace existingValue ≠ "" then setAt field (.str existingValue) incoming else incoming
        | _ => incoming
    | some _ => incoming

/-- An incoming header after the merge. -/
def mergeHeader (existingHeaders : List (String × Json)) (clearedHeaderKeys : List String)
    (f : String × Json) : String × Json :=
  if f.1 ∈ clearedHeaderKeys then (f.1, .str "")
  else
    match f.2 with
    | .str incomingValue =>
      if trimSpace incomingValue ≠ "" then f
      else
        match valueAt f.1 existingHeaders with
        | some (.str existingValue) =>
          if trimSpace existingValue = "" then f else (f.1, .str existingValue)
        | _ => f
    | _ => f

def mergeWebhookHeadersWithExisting (existing incoming : List (String × Json))
    (clearedHeaderKeys : List String) :
    List (String × Json) :=
  match valueAt "headers" existing with
  | some (.obj existingHeaders) =>
    match valueAt "headers" incoming with
    | none => setAt "headers" (.obj existingHeaders) incoming
    | some (.obj incomingHeaders) =>
      if incomingHeaders.isEmpty then incoming
      else setAt "headers"
        (.obj (incomingHeaders.map (mergeHeader existingHeaders clearedHeaderKeys))) incoming
    | some _ => incoming
  | _ => incoming

/-- `mergeNotificationConfigWithExistingSecrets`; `none` is an error. -/
def mergeNotificationConfigWithExistingSecrets (channelType : String)
    (existingConfig incomingConfig : Option Json) (clearedFields clearedHeaderKeys : List String) :
    Option Json :=
  match parseNotificationConfigMap env incomingConfig with
  | none => none
  | some incomingParsed =>
    let secretFields := getNotificationChannelSecretFields channelType
    if secretFields.isEmpty then some (byKey (.obj incomingParsed))
    else
      match parseNotificationConfigMap env existingConfig with
      | none => none
      | some existingParsed =>
        let merged := secretFields.foldl (mergeSecret existingParsed clearedFields) incomingParsed
        some (byKey (.obj
          (if isWebhook channelType
            then mergeWebhookHeadersWithExisting existingParsed merged clearedHeaderKeys else merged)))

end Merge

/-! ## The tables of the types -/

/-- What the table of secret fields says of the struct of a type. -/
structure TypeFacts (channelType : String) (fields : List (String × FieldKind)) : Prop where
  names : (fields.map (·.1)).Nodup
  secrets : ∀ name ∈ getNotificationChannelSecretFields channelType,
    (name, FieldKind.string) ∈ fields ∧ matchesField name name = true ∧ name ≠ "headers"
  some_secret : getNotificationChannelSecretFields channelType ≠ []
  distinct : (getNotificationChannelSecretFields channelType).Nodup
  webhook : isWebhook channelType = true ↔ channelType = "webhook"
  headers : channelType = "webhook" → ("headers", FieldKind.stringMap) ∈ fields
  no_headers : channelType ≠ "webhook" → ∀ field ∈ fields, matchesField "headers" field.1 = false

theorem typeFacts {channelType : String} {fields : List (String × FieldKind)}
    (h : channelConfigFields channelType = some fields) :
    TypeFacts channelType fields := by
  unfold channelConfigFields at h
  split at h <;> first | (cases h; constructor <;> decide +kernel) | cases h

/-! ## A hole where a secret is -/

/-- A config with a hole: at a member, or at an entry of the object that the member has. `name` is
the field that the member's key is read as. -/
structure SecretHole where
  before : List (String × Json)
  after : List (String × Json)
  key : String
  name : String
  inside : Option (List (String × Json) × String × List (String × Json))

namespace SecretHole

/-- The value of the member. -/
def member (hole : SecretHole) (v : Json) : Json :=
  match hole.inside with
  | none => v
  | some (b, header, a) => .obj (b ++ (header, v) :: a)

def members (hole : SecretHole) (v : Json) : List (String × Json) :=
  hole.before ++ (hole.key, hole.member v) :: hole.after

def fill (hole : SecretHole) (v : Json) : Option Json := some (.obj (hole.members v))

/-- The sender for the type reads the hole as one of its secrets: no later member takes its place. -/
structure ReadBySender (hole : SecretHole) (channelType : String) : Prop where
  key : matchesField hole.key hole.name = true
  field : hole.inside = none → hole.name ∈ getNotificationChannelSecretFields channelType ∧
    ∀ f ∈ hole.after, matchesField f.1 hole.name = true → f.2 = .null
  header : ∀ b header a, hole.inside = some (b, header, a) → channelType = "webhook" ∧
    hole.name = "headers" ∧ header ∉ a.map (·.1) ∧
    ∀ f ∈ hole.after, matchesField f.1 "headers" = true → ∃ entries, f.2 = .obj entries ∧
      header ∉ entries.map (·.1)

/-- What the sender reads of the members. -/
def read (hole : SecretHole) (members : List (String × Json)) : Option String :=
  match hole.inside with
  | none => some (readString hole.name members)
  | some (_, header, _) => valueAt header (readHeaders members)

/-- The response is the same for two values: they are the same; or the key comes again as it is
spelled; or it is spelled as the masking expects, and both values are set. -/
def Hidden (hole : SecretHole) (v w : Json) : Prop :=
  v = w ∨ hole.key ∈ hole.after.map (·.1) ∨ (hole.key = hole.name ∧ isSet v = true ∧ isSet w = true)

end SecretHole

/-! ## What the sender reads -/

section Sender
variable {headers : List (String × String)} {entries before after : List (String × Json)}
  {header key : String}

/-- One member's part in the headers. -/
def setHeaders (headers : List (String × String)) (f : String × Json) : List (String × String) :=
  if matchesField f.1 "headers" then
    match f.2 with
    | .null => []
    | .obj entries => readEntries headers entries
    | _ => headers
  else headers

theorem valueAt_readEntries (h : header ∉ entries.map (·.1)) :
    valueAt header (readEntries headers entries) = valueAt header headers := by
  unfold readEntries
  induction entries generalizing headers with
  | nil => rfl
  | cons f entries ih =>
    rw [List.map_cons, List.mem_cons, not_or] at h
    rw [List.foldl_cons, ih h.2, valueAt_setAt, if_neg h.1]

/-- Later members that do not name the header leave it alone. -/
theorem valueAt_setHeaders (h : ∀ f ∈ after, matchesField f.1 "headers" = true → ∃ entries,
      f.2 = .obj entries ∧
    header ∉ entries.map (·.1)) :
    valueAt header (after.foldl setHeaders headers) = valueAt header headers := by
  induction after generalizing headers with
  | nil => rfl
  | cons f after ih =>
    rw [List.foldl_cons, ih fun g hg => h g (List.mem_cons_of_mem f hg), setHeaders]
    split
    · rename_i hmatch
      obtain ⟨entries, hobj, hnone⟩ := h f List.mem_cons_self hmatch
      rw [hobj]
      exact valueAt_readEntries hnone
    · rfl

/-- A sender of the type reads what is in the hole. -/
theorem SecretHole.read_fill {hole : SecretHole} {channelType : String}
    (h : hole.ReadBySender channelType) (s : String) :
    hole.read (hole.members (.str s)) = some s := by
  unfold SecretHole.read SecretHole.members SecretHole.member
  split
  · rename_i hinside
    exact congrArg some (readString_decides h.key (h.field hinside).2 s)
  · rename_i b header a hinside
    obtain ⟨-, hname, hlast, hafter⟩ := h.header b header a hinside
    have hkey := h.key
    rw [hname] at hkey
    change valueAt header ((hole.before ++ (hole.key, _) :: hole.after).foldl setHeaders []) = some s
    rw [List.foldl_append, List.foldl_cons, valueAt_setHeaders hafter, setHeaders, if_pos hkey]
    change valueAt header ((b ++ (header, .str s) :: a).foldl _ _) = some s
    rw [List.foldl_append, List.foldl_cons]
    exact (valueAt_readEntries hlast).trans (by rw [valueAt_setAt, if_pos rfl])

end Sender

/-! ## Responses -/

section Hide
variable {env : ConfigEnv} {channelType : String} {hole : SecretHole}
  {fields : List (String × FieldKind)} {v w : Json}
  {a b c d : List (String × Json)} {key : String}

/-- A string or `null`. -/
def IsText (v : Json) : Prop := v = .null ∨ ∃ s, v = .str s

theorem IsText.byKey (h : IsText v) : JsonText.byKey v = v := by
  obtain rfl | ⟨s, rfl⟩ := h <;> rfl

theorem IsText.decodeAny (h : IsText v) : JsonText.decodeAny env.float v = some v := by
  obtain rfl | ⟨s, rfl⟩ := h <;> rfl

theorem IsText.mask (h : IsText v) : IsText (mask v) := by
  unfold Channels.mask
  split
  · exact .inr ⟨"", rfl⟩
  · exact h

/-- Masked values are the same when the values are, or are both set. -/
theorem mask_eq_iff :
    (mask v = mask w ∧ isSet v = isSet w) ↔ v = w ∨ (isSet v = true ∧ isSet w = true) := by
  unfold mask
  cases hv : isSet v <;> cases hw : isSet w <;> simp
  · rintro rfl
    simp [hv] at hw
  · rintro rfl
    simp [hv] at hw

/-- What is in the hole of an accepted config. -/
theorem isText_of_valid (hread : hole.ReadBySender channelType)
    (h : validateChannelConfig env channelType (hole.fill v) = .ok ()) :
    IsText v := by
  obtain ⟨fields, parsed, hfields, -, hstrict⟩ := validateChannelConfig_ok h
  have facts := typeFacts hfields
  have hmem : (hole.key, hole.member v) ∈ membersOf (hole.fill v) :=
    List.mem_append_right _ List.mem_cons_self
  cases hinside : hole.inside with
  | none =>
    have haccepts :=
      decode_accepts hstrict facts.names (facts.secrets _ (hread.field hinside).1).1 hmem hread.key
    rw [SecretHole.member, hinside] at haccepts
    exact accepts_string haccepts
  | some place =>
    obtain ⟨b, header, a⟩ := place
    obtain ⟨hwebhook, hname, -, -⟩ := hread.header b header a hinside
    have hkey := hread.key
    rw [hname] at hkey
    have haccepts := decode_accepts hstrict facts.names (facts.headers hwebhook) hmem hkey
    rw [SecretHole.member, hinside] at haccepts
    have hentry := List.all_eq_true.1 haccepts (header, v) (List.mem_append_right _ List.mem_cons_self)
    cases v with
    | null => exact .inl rfl
    | str s => exact .inr ⟨s, rfl⟩
    | bool b => cases hentry
    | num n => cases hentry
    | arr vs => cases hentry
    | obj fs => cases hentry

/-- The parsed member, which depends on what is in the hole. -/
inductive ParsedMember (hole : SecretHole) : (Json → Json) → Prop where
  | field (h : hole.inside = none) : ParsedMember hole id
  | header (b : List (String × Json)) (header : String) (a c d : List (String × Json))
    (h : hole.inside = some (b, header, a))
      (hkeys : ∀ v : Json, ((c ++ (header, v) :: d).map (·.1)).Nodup) : ParsedMember hole fun v =>
        .obj (c ++ (header, v) :: d)

/-- The parts around the hole are parsed alike whatever is in it. -/
theorem parse_fill (hread : hole.ReadBySender channelType) {parsed : List (String × Json)}
    (h : unmarshalMap env (hole.fill v) = some parsed) :
    ∃ before after member, after.map (·.1) = hole.after.map (·.1) ∧ ParsedMember hole member ∧
      ∀ w, IsText w → unmarshalMap env (hole.fill w) = some
        (lastOfEach (before ++ (hole.key, member w) :: after)) := by
  obtain ⟨gs, hgs, -⟩ := Option.map_eq_some_iff.1 h
  obtain ⟨before, x, after, hbefore, hx, hafter, -⟩ := decodeFields_insert_iff.1 hgs
  have hfill : ∀ w y, decodeAny env.float (hole.member w) = some y →
      unmarshalMap env (hole.fill w) = some (lastOfEach (before ++ (hole.key, y) :: after)) :=
    fun w y hy => Option.map_eq_some_iff.2
      ⟨_, decodeFields_insert_iff.2 ⟨_, y, _, hbefore, hy, hafter, rfl⟩, rfl⟩
  cases hinside : hole.inside with
  | none =>
    refine ⟨before, after, id, keys_decodeFields hafter, .field hinside, fun w hw => hfill w w ?_⟩
    rw [SecretHole.member, hinside]
    exact hw.decodeAny
  | some place =>
    obtain ⟨b, header, a⟩ := place
    obtain ⟨-, -, hlast, -⟩ := hread.header b header a hinside
    rw [SecretHole.member, hinside, decodeAny] at hx
    obtain ⟨entries, hentries, -⟩ := Option.map_eq_some_iff.1 hx
    obtain ⟨b', _, a', hb', -, ha', -⟩ := decodeFields_insert_iff.1 hentries
    have hlast' : header ∉ a'.map (·.1) := by
      rw [keys_decodeFields ha']
      exact hlast
    obtain ⟨c, d, hcd⟩ : ∃ c d, ∀ w : Json, lastOfEach (b' ++ (header, w) :: a') = c ++
        (header, w) :: d := lastOfEach_insert hlast'
    refine ⟨before, after, _, keys_decodeFields hafter, .header b header a c d hinside fun w => ?_,
      fun w hw => hfill w _ ?_⟩
    · rw [← hcd w]
      exact nodup_keys_lastOfEach _
    · rw [SecretHole.member, hinside, decodeAny,
        decodeFields_insert_iff.2 ⟨b', w, a', hb', hw.decodeAny, ha', rfl⟩, Option.map_some, hcd]

/-! ### Member by member -/

/-- A member of the response. -/
def maskMember (secretFields : List String) (webhook : Bool) (f : String × Json) : String × Json :=
  let g := if f.1 ∈ secretFields then (f.1, mask f.2) else f
  if webhook = true ∧ f.1 = "headers" then (g.1, maskEntries g.2) else g

/-- The member's part in the list of the fields that are set. -/
def fieldOf (secretFields : List String) (f : String × Json) : List String :=
  if f.1 ∈ secretFields ∧ isSet f.2 = true then [f.1] else []

/-- The member's part in the list of the headers that are set. -/
def headersOf (secretFields : List String) (webhook : Bool) (f : String × Json) : List String :=
  if webhook = true ∧ f.1 = "headers"
    then maskedKeys (if f.1 ∈ secretFields then mask f.2 else f.2) else []

theorem filter_map_eq_flatMap (secretFields : List String) (parsed : List (String × Json)) :
    (parsed.filter fun f => f.1 ∈ secretFields ∧ isSet f.2 = true).map (·.1) = parsed.flatMap
    (fieldOf secretFields) := by
  induction parsed with
  | nil => rfl
  | cons f parsed ih =>
    rw [List.flatMap_cons, ← ih, List.filter_cons, fieldOf]
    by_cases hf : f.1 ∈ secretFields ∧ isSet f.2 = true <;> simp [hf]

theorem maskWebhookHeaders_maskFields (secretFields : List String) (webhook : Bool)
    (parsed : List (String × Json)) :
    (if webhook then maskWebhookHeaders (maskFields secretFields parsed).1
      else ((maskFields secretFields parsed).1, [])) =
      (parsed.map (maskMember secretFields webhook),
        parsed.flatMap (headersOf secretFields webhook)) := by
  have hkey : ∀ f : String × Json, (if f.1 ∈ secretFields then (f.1, mask f.2) else f).1 = f.1 := by
    intro f
    split <;> rfl
  cases webhook with
  | true =>
    rw [if_pos rfl]
    refine Prod.ext ?_ ?_
    · simp only [maskWebhookHeaders, maskFields, List.map_map]
      refine List.map_congr_left fun f _ => ?_
      simp only [Function.comp_apply, maskMember, hkey, true_and]
    · simp only [maskWebhookHeaders, maskFields, List.flatMap_map, hkey]
      congr 1
      funext f
      simp only [headersOf, true_and]
      by_cases hf : f.1 ∈ secretFields <;> simp [hf]
  | false =>
    rw [if_neg Bool.false_ne_true]
    refine Prod.ext ?_ ?_
    · exact List.map_congr_left
        fun f _ => by simp only [maskMember, Bool.false_eq_true, false_and, if_false]
    · have hnone : headersOf secretFields false = fun _ => [] := by
        funext f
        simp only [headersOf, Bool.false_eq_true, false_and, if_false]
      rw [hnone]
      simp

theorem sanitize_parsed {config : Option Json} {parsed : List (String × Json)}
    (h : unmarshalMap env config = some parsed) :
    sanitizeNotificationConfig env channelType config =
      (byKey
        (.obj (parsed.map (maskMember (getNotificationChannelSecretFields channelType)
        (isWebhook channelType)))),
        sortStrings (parsed.flatMap (fieldOf (getNotificationChannelSecretFields channelType))),
        sortStrings (parsed.flatMap
          (headersOf (getNotificationChannelSecretFields channelType) (isWebhook channelType)))) := by
  unfold sanitizeNotificationConfig parseNotificationConfigMap
  rw [h]
  dsimp only
  rw [maskWebhookHeaders_maskFields, ← filter_map_eq_flatMap]
  rfl

theorem maskMember_key {secretFields : List String} {webhook : Bool} (f : String × Json) :
    (maskMember secretFields webhook f).1 = f.1 := by
  unfold maskMember
  dsimp only
  split <;> split <;> rfl

theorem isSet_of_length {name : String}
    (h : (if isSet v then [name] else []).length = (if isSet w then [name] else []).length) :
    isSet v = isSet w := by
  cases hv : isSet v <;> cases hw : isSet w <;> simp [hv, hw] at h ⊢

/-- What the response shows of one member: its masked value, and how many names it adds. -/
theorem response_eq {p q r r' : List String} {y z : Json} (x x' : List String × List String)
    (hkeys : ((a ++ (key, y) :: b).map (·.1)).Nodup)
    (h : (byKey (.obj (a ++ (key, y) :: b)), sortStrings (p ++ (x.1 ++ q)),
      sortStrings (r ++ (x.2 ++ r'))) =
      (byKey (.obj (a ++ (key, z) :: b)), sortStrings (p ++ (x'.1 ++ q)),
        sortStrings (r ++ (x'.2 ++ r')))) :
    byKey y = byKey z ∧ x.1.length = x'.1.length ∧ x.2.length = x'.2.length := by
  have hlength : ∀ {l m m' n : List String}, sortStrings (l ++ (m ++ n)) = sortStrings
      (l ++ (m' ++ n)) → m.length = m'.length := by
    intro l m m' n hsort
    have hlen := congrArg List.length hsort
    simp only [sortStrings, List.length_insertionSort, List.length_append] at hlen
    omega
  obtain ⟨hobj, hlists⟩ := Prod.mk.inj h
  obtain ⟨hfields, hheaders⟩ := Prod.mk.inj hlists
  exact ⟨(byKey_obj_iff hkeys).1 hobj, hlength hfields, hlength hheaders⟩

/-- The masked member, and the names that it adds: the value in the hole is masked, or shown as it is. -/
inductive Shown (hole : SecretHole) (secretFields : List String) (webhook : Bool)
    (member : Json → Json) : Prop where
  | field (hname : hole.key = hole.name)
    (hmember : ∀ v, maskMember secretFields webhook (hole.key, member v) = (hole.key, mask v))
      (hfield : ∀ v, fieldOf secretFields (hole.key, member v) = if isSet v then [hole.key] else [])
      (hheaders : ∀ v, headersOf secretFields webhook (hole.key, member v) = [])
  | header (header : String) (c d : List (String × Json)) (p q : List String)
    (hname : hole.key = hole.name)
      (hkeys : ∀ v : Json, ((c ++ (header, v) :: d).map (·.1)).Nodup)
      (hmember : ∀ v, maskMember secretFields webhook (hole.key, member v) =
        (hole.key, .obj (c ++ (header, mask v) :: d)))
      (hfield : ∀ v, fieldOf secretFields (hole.key, member v) = [])
      (hheaders : ∀ v, headersOf secretFields webhook (hole.key, member v) = p ++
        ((if isSet v then [header] else []) ++ q))
  | bare (hname : hole.key ≠ hole.name)
    (hmember : ∀ v, maskMember secretFields webhook (hole.key, member v) = (hole.key, member v))
      (hplain : ∀ v w, byKey (member v) = byKey (member w) → byKey v = byKey w)

theorem shown (facts : TypeFacts channelType fields) (hread : hole.ReadBySender channelType)
    {member : Json → Json} (hmember : ParsedMember hole member) :
    Shown hole (getNotificationChannelSecretFields channelType) (isWebhook channelType) member := by
  -- a key that is spelled as a secret field or as `headers` is that field
  have hsecret : hole.key ∈ getNotificationChannelSecretFields channelType → hole.key = hole.name :=
    fun hmem => matchesField_unique (facts.secrets _ hmem).2.1 hread.key
  have hheaders : hole.key = "headers" → hole.key = hole.name := fun hkey =>
    matchesField_unique (show matchesField hole.key hole.key = true by rw [hkey]; decide) hread.key
  have hbare : hole.key ≠ hole.name → ∀ x : Json,
      maskMember (getNotificationChannelSecretFields channelType) (isWebhook channelType)
        (hole.key, x) = (hole.key, x) := by
    intro hne x
    have h₁ : hole.key ∉ getNotificationChannelSecretFields channelType := fun hmem => hne (hsecret hmem)
    have h₂ : hole.key ≠ "headers" := fun hkey => hne (hheaders hkey)
    simp [maskMember, h₁, h₂]
  cases hmember with
  | field hinside =>
    have hname := (hread.field hinside).1
    by_cases hkey : hole.key = hole.name
    · rw [← hkey] at hname
      have hne := (facts.secrets _ hname).2.2
      refine .field hkey ?_ ?_ ?_
      · simp [maskMember, hname, hne]
      · simp [fieldOf, hname]
      · simp [headersOf, hne]
    · exact .bare hkey (fun v => hbare hkey v) fun v w h => h
  | header b header a c d hinside hkeys =>
    obtain ⟨hwebhook, hname, -, -⟩ := hread.header b header a hinside
    by_cases hkey : hole.key = hole.name
    · have hnot : "headers" ∉ getNotificationChannelSecretFields channelType :=
        fun hmem => (facts.secrets _ hmem).2.2 rfl
      have hisWebhook := facts.webhook.2 hwebhook
      rw [hname] at hkey
      refine .header header (c.map fun f => (f.1, mask f.2)) (d.map fun f => (f.1, mask f.2))
        ((c.filter fun f => isSet f.2).map (·.1)) ((d.filter fun f => isSet f.2).map (·.1))
          (hkey.trans hname.symm) ?_ ?_ ?_ ?_
      · intro v
        have hnodup := hkeys v
        simpa only [List.map_append, List.map_cons, List.map_map, Function.comp_def] using hnodup
      · simp [maskMember, hkey, hnot, hisWebhook, maskEntries]
      · simp [fieldOf, hkey, hnot]
      · intro v
        simp only [headersOf, hkey, hisWebhook, and_self, if_true, if_neg hnot, maskedKeys,
          List.filter_append, List.map_append,
          List.filter_cons]
        split <;> simp
    · exact .bare hkey (fun v => hbare hkey _) fun v w h => (byKey_obj_iff (hkeys v)).1 h

/-- Two accepted configs that differ only in the value a sender reads as a secret have the same
response exactly when the masking finds the secret: a key spelled in another case is shown. -/
theorem responses_hide_secrets_iff (env : ConfigEnv) (channelType : String) (hole : SecretHole)
    (hread : hole.ReadBySender channelType) (v w : Json)
    (hv : validateChannelConfig env channelType (hole.fill v) = .ok ())
    (hw : validateChannelConfig env channelType (hole.fill w) = .ok ()) :
    sanitizeNotificationConfig env channelType
    (hole.fill v) = sanitizeNotificationConfig env channelType (hole.fill w) ↔
      hole.Hidden v w := by
  obtain ⟨fields, parsed, hfields, hparsed, -⟩ := validateChannelConfig_ok hv
  have facts := typeFacts hfields
  have htext := isText_of_valid hread hv
  have htext' := isText_of_valid hread hw
  obtain ⟨before, after, member, hafter, hmember, hparse⟩ := parse_fill hread hparsed
  by_cases hshadowed : hole.key ∈ hole.after.map (·.1)
  · -- the member leaves no trace
    rw [← hafter] at hshadowed
    rw [sanitize_parsed (hparse v htext), sanitize_parsed (hparse w htext'),
      lastOfEach_shadowed _ hshadowed,
      lastOfEach_shadowed _ hshadowed]
    exact ⟨fun _ => .inr (.inl (hafter ▸ hshadowed)), fun _ => rfl⟩
  · rw [← hafter] at hshadowed
    obtain ⟨a, b, hab⟩ : ∃ a b, ∀ x : Json, lastOfEach (before ++ (hole.key, x) :: after) = a ++
        (hole.key, x) :: b :=
      lastOfEach_insert hshadowed
    have hhidden : hole.Hidden v w ↔
        v = w ∨ (hole.key = hole.name ∧ isSet v = true ∧ isSet w = true) := by
      rw [SecretHole.Hidden, ← hafter]
      exact or_congr_right (or_iff_right hshadowed)
    rw [sanitize_parsed (hparse v htext), sanitize_parsed (hparse w htext'), hab, hab, hhidden]
    -- both responses list the same names, the hole among them once
    have hkeys : ∀ x, ((a ++ (hole.key, x) :: b).map (·.1)).Nodup :=
      fun x => hab x ▸ nodup_keys_lastOfEach _
    have hshown := shown facts hread hmember
    generalize getNotificationChannelSecretFields channelType = secretFields at hshown ⊢
    generalize isWebhook channelType = webhook at hshown ⊢
    have hkeys' : ∀ x, ((a.map (maskMember secretFields webhook) ++
        (hole.key, x) :: b.map (maskMember secretFields webhook)).map (·.1)).Nodup := by
      intro x
      have hsame : ∀ f, (maskMember secretFields webhook f).1 = f.1 := maskMember_key
      simpa [Function.comp_def, hsame] using hkeys x
    simp only [List.map_append, List.map_cons, List.flatMap_append, List.flatMap_cons]
    cases hshown with
    | field hname hmember hfield hheaders =>
      simp only [hmember, hfield, hheaders]
      constructor
      · intro h
        obtain ⟨hvalue, hcount, -⟩ := response_eq (if isSet v then [hole.key] else [], [])
          (if isSet w then [hole.key] else [], []) (hkeys' _) h
        rw [htext.mask.byKey, htext'.mask.byKey] at hvalue
        exact (mask_eq_iff.1 ⟨hvalue, isSet_of_length hcount⟩).imp_right fun hset => ⟨hname, hset⟩
      · intro h
        obtain ⟨hvalue, hset⟩ := mask_eq_iff.2 (h.imp_right And.right)
        rw [hvalue, hset]
    | header header c d p q hname hnodup hmember hfield hheaders =>
      simp only [hmember, hfield, hheaders]
      constructor
      · intro h
        obtain ⟨hvalue, -, hcount⟩ := response_eq ([], p ++ ((if isSet v then [header] else []) ++ q))
          ([], p ++ ((if isSet w then [header] else []) ++ q)) (hkeys' _) h
        have hinner := (byKey_obj_iff (hnodup _)).1 hvalue
        rw [htext.mask.byKey, htext'.mask.byKey] at hinner
        simp only [List.length_append] at hcount
        have hone : (if isSet v then [header] else []).length =
            (if isSet w then [header] else []).length := by omega
        exact (mask_eq_iff.1 ⟨hinner, isSet_of_length hone⟩).imp_right fun hset => ⟨hname, hset⟩
      · intro h
        obtain ⟨hvalue, hset⟩ := mask_eq_iff.2 (h.imp_right And.right)
        rw [hvalue, hset]
    | bare hname hmember hplain =>
      rw [hmember, hmember]
      constructor
      · intro h
        have hvalue :=
          (response_eq (fieldOf secretFields (hole.key, member v), headersOf secretFields webhook
            (hole.key, member v))
          (fieldOf secretFields (hole.key, member w), headersOf secretFields webhook
            (hole.key, member w)) (hkeys' _) h).1
        have hplain' := hplain v w hvalue
        rw [htext.byKey, htext'.byKey] at hplain'
        exact .inl hplain'
      · rintro (rfl | ⟨hkey, -⟩)
        · rfl
        · exact absurd hkey hname

/-! ### Samples -/

def sampleConfigEnv : ConfigEnv := ⟨fun _ => none, fun _ => false, some, none⟩

/-- A Telegram config with a hole at `key`. -/
def sampleHole (key : String) : SecretHole := ⟨[("chat_id", .str "1")], [], key, "bot_token", none⟩

theorem sampleHole_read {key : String} (h : matchesField key "bot_token" = true) :
    (sampleHole key).ReadBySender "telegram" where
  key := h
  field := by
    have hsecret : "bot_token" ∈ getNotificationChannelSecretFields "telegram" := by decide +kernel
    exact fun _ => ⟨hsecret, fun _ hf => by cases hf⟩
  header := fun _ _ _ hinside => by cases hinside

/-- A config that validation accepts. -/
def isAccepted (env : ConfigEnv) (channelType : String) (config : Option Json) : Bool :=
  match validateChannelConfig env channelType config with
  | .ok _ => true
  | .error _ => false

theorem accepted_of {channelType : String} {config : Option Json}
    (h : isAccepted env channelType config = true) :
    validateChannelConfig env channelType config = .ok () := by
  unfold isAccepted at h
  split at h
  · assumption
  · cases h

theorem responses_hide_secrets_telegram :
    sanitizeNotificationConfig sampleConfigEnv "telegram"
    ((sampleHole "bot_token").fill (.str "12:ab")) =
      sanitizeNotificationConfig sampleConfigEnv "telegram"
        ((sampleHole "bot_token").fill (.str "34:cd")) :=
  (responses_hide_secrets_iff sampleConfigEnv "telegram" (sampleHole "bot_token")
    (sampleHole_read (by decide +kernel)) (.str "12:ab")
    (.str "34:cd") (accepted_of (by decide +kernel)) (accepted_of (by decide +kernel))).2
      (.inr (.inr ⟨rfl, by decide +kernel, by decide +kernel⟩))

/-- Spelled `Bot_Token`, the token is accepted and shown. -/
theorem responses_show_secrets :
    ¬ ∀ (env : ConfigEnv) (channelType : String) (hole : SecretHole),
    hole.ReadBySender channelType → ∀ v w : Json,
      validateChannelConfig env channelType (hole.fill v) = .ok () →
        validateChannelConfig env channelType (hole.fill w) = .ok () →
      sanitizeNotificationConfig env channelType
        (hole.fill v) = sanitizeNotificationConfig env channelType (hole.fill w) := by
  intro h
  have hsame :=
    h sampleConfigEnv "telegram" (sampleHole "Bot_Token") (sampleHole_read (by decide +kernel))
      (.str "12:ab") (.str "34:cd")
    (accepted_of (by decide +kernel)) (accepted_of (by decide +kernel))
  have htext := congrArg (fun response => write response.1) hsame
  revert htext
  decide +kernel

end Hide

end Subdux.Channels
