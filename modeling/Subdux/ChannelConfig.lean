import Mathlib.Algebra.Group.Int.Defs
import Subdux.Lib.JsonMaps
import Subdux.Outbound
/-!
# Channel configs

`validateChannelConfig` of `internal/service/notification_validation.go`. A config is given by
the JSON value that it is the text of (`none` when it is no JSON); a blank text stands for
`{}`. The members of an object stand in the order of the text, and a key may come twice.

A struct is a table of names and kinds. The decoder finds the field of a key in either case,
and the last member that is not `null` decides (`readString_decides`). `url.Parse`,
`mail.ParseAddress` and what a float makes of a number are fields of `ConfigEnv`.
-/

namespace Subdux.Channels
open GoStrings JsonText Results

/-! ## Decoding into a struct -/

inductive FieldKind where
  | string | int64 | bool | intPtr | stringMap
  deriving DecidableEq

/-- What `foldName` makes of the characters that fold to one of ASCII. -/
def foldRune (c : Char) : Char :=
  if 'A' ≤ c ∧ c ≤ 'Z' then Char.ofNat (c.toNat + 32)
  else if c.toNat = 0x17F then 's'
  else if c.toNat = 0x212A then 'k'
  else c

/-- The decoder takes the key for the field. -/
def matchesField (key name : String) : Bool := key.toList.map foldRune = name.toList

/-- `strconv.ParseInt` on a number of JSON. -/
def parseInt64 (text : List Char) : Option Int :=
  let digits := if text.head? = some '-' then text.tail else text
  if digits ≠ [] ∧ digits.all (·.isDigit) then
    let n : Int := (digits.foldl (fun n c => 10 * n + (c.toNat - '0'.toNat)) 0 : Nat)
    let signed := if text.head? = some '-' then -n else n
    if -2 ^ 63 ≤ signed ∧ signed < 2 ^ 63 then some signed else none
  else none

/-- A value that a field of the kind can be set to; `null` leaves it alone. -/
def FieldKind.accepts : FieldKind → Json → Bool
  | _, .null => true
  | .string, .str _ => true
  | .int64, .num n => (parseInt64 n.text).isSome
  | .intPtr, .num n => (parseInt64 n.text).isSome
  | .bool, .bool _ => true
  | .stringMap, .obj fs => fs.all fun f => match f.2 with
    | .str _ => true
    | .null => true
    | _ => false
  | _, _ => false

/-- `decodeChannelConfigStrict` gives no error. -/
def decodeChannelConfigStrict (fields : List (String × FieldKind))
    (members : List (String × Json)) : Bool :=
  members.all fun f => fields.any fun field => matchesField f.1 field.1 && field.2.accepts f.2

/-- The string field after the members. -/
def readString (name : String) (members : List (String × Json)) : String :=
  members.foldl (fun value f => match f.2 with
    | .str s => if matchesField f.1 name then s else value
    | _ => value) ""

def readInt64 (name : String) (members : List (String × Json)) : Int :=
  members.foldl (fun value f => match f.2 with
    | .num n => if matchesField f.1 name then (parseInt64 n.text).getD value else value
    | _ => value) 0

/-- A `map[string]string` after the entries of an object. -/
def readEntries (headers : List (String × String)) (entries : List (String × Json)) :
    List (String × String) :=
  entries.foldl (fun headers f => setAt f.1 (match f.2 with | .str s => s | _ => "") headers) headers

/-- The headers after the members: an object adds to what is there, `null` empties it. -/
def readHeaders (members : List (String × Json)) : List (String × String) :=
  members.foldl (fun headers f =>
    if matchesField f.1 "headers" then
      match f.2 with
      | .null => []
      | .obj entries => readEntries headers entries
      | _ => headers
    else headers) []

/-! ## The structs -/

def smtpChannelConfig : List (String × FieldKind) :=
  [("host", .string), ("port", .int64), ("username", .string), ("password", .string),
   ("from_email", .string), ("from_name", .string), ("to_email", .string), ("encryption", .string),
     ("skip_tls_verify", .bool)]

def resendChannelConfig : List (String × FieldKind) :=
  [("api_key", .string), ("from_email", .string), ("to_email", .string)]

def telegramChannelConfig : List (String × FieldKind) := [("bot_token", .string), ("chat_id", .string)]

def webhookChannelConfig : List (String × FieldKind) :=
  [("url", .string), ("secret", .string), ("method", .string), ("headers", .stringMap)]

def gotifyChannelConfig : List (String × FieldKind) := [("url", .string), ("token", .string)]

def ntfyChannelConfig : List (String × FieldKind) :=
  [("url", .string), ("topic", .string), ("token", .string), ("username", .string),
   ("password", .string), ("priority", .string), ("tags", .string), ("click", .string),
     ("icon", .string)]

def barkChannelConfig : List (String × FieldKind) := [("device_key", .string), ("url", .string)]

def serverchanChannelConfig : List (String × FieldKind) := [("send_key", .string)]

def feishuChannelConfig : List (String × FieldKind) := [("webhook_url", .string), ("secret", .string)]

def wecomChannelConfig : List (String × FieldKind) := [("webhook_url", .string)]

def dingtalkChannelConfig : List (String × FieldKind) := [("webhook_url", .string), ("secret", .string)]

def pushdeerChannelConfig : List (String × FieldKind) := [("push_key", .string), ("server_url", .string)]

def pushplusChannelConfig : List (String × FieldKind) :=
  [("token", .string), ("endpoint", .string), ("template", .string), ("channel", .string),
   ("topic", .string)]

def pushoverChannelConfig : List (String × FieldKind) :=
  [("token", .string), ("user", .string), ("device", .string), ("priority", .intPtr),
   ("sound", .string), ("endpoint", .string)]

def napcatChannelConfig : List (String × FieldKind) :=
  [("url", .string), ("access_token", .string), ("message_type", .string), ("user_id", .string),
   ("group_id", .string)]

/-- The struct of a channel type. -/
def channelConfigFields : String → Option (List (String × FieldKind))
  | "smtp" => some smtpChannelConfig
  | "resend" => some resendChannelConfig
  | "telegram" => some telegramChannelConfig
  | "webhook" => some webhookChannelConfig
  | "gotify" => some gotifyChannelConfig
  | "ntfy" => some ntfyChannelConfig
  | "bark" => some barkChannelConfig
  | "serverchan" => some serverchanChannelConfig
  | "feishu" => some feishuChannelConfig
  | "wecom" => some wecomChannelConfig
  | "dingtalk" => some dingtalkChannelConfig
  | "pushdeer" => some pushdeerChannelConfig
  | "pushplus" => some pushplusChannelConfig
  | "pushover" => some pushoverChannelConfig
  | "napcat" => some napcatChannelConfig
  | _ => none

/-! ## Validation -/

/-- What `url.Parse` gives of a URL, as far as the channels look at it. -/
structure ChannelURL where
  scheme : String
  host : String
  hostname : String

structure ConfigEnv where
  parseURL : String → Option ChannelURL
  /-- `mail.ParseAddress` gives no error. -/
  parseAddress : String → Bool
  /-- A number as the float that it decodes into is written, if there is one. -/
  float : Number → Option Number
  db : Option OutboundDB

section Validate
variable (env : ConfigEnv)

/-- A text that decodes into a `map[string]interface{}`, with what it decodes into. -/
def unmarshalMap : Option Json → Option (List (String × Json))
  | some .null => some []
  | some (.obj members) => (decodeFields env.float members).map lastOfEach
  | _ => none

def validateHTTPURL (rawURL fieldLabel : String) (requireHTTPS : Bool) : Except String ChannelURL :=
  let refused :=
    fieldLabel ++ if requireHTTPS then " must start with https://"
      else " must start with http:// or https://"
  match env.parseURL (trimSpace rawURL) with
  | none => .error refused
  | some parsed =>
    let scheme := toLower parsed.scheme
    if parsed.host = "" then .error refused
    else if requireHTTPS then if scheme ≠ "https" then .error refused else .ok parsed
    else if scheme ≠ "http" ∧ scheme ≠ "https" then .error refused
    else .ok parsed

/-- `validateOutboundHost`, with the text of its error. -/
def checkOutboundHost (hostname fieldLabel : String) : Except String Unit :=
  match validateOutboundHost hostname fieldLabel env.db with
  | .ok () => .ok ()
  | .error err => .error err.text

def validateOutboundChannelURL (rawURL fieldLabel : String) (requireHTTPS : Bool) :
    Except String Unit := do
  let parsed ← validateHTTPURL env rawURL fieldLabel requireHTTPS
  checkOutboundHost env parsed.hostname fieldLabel

/-- The URL check, of a URL that may be left out. -/
def checkOptionalURL (rawURL fieldLabel : String) : Except String Unit :=
  if rawURL ≠ "" then validateOutboundChannelURL env rawURL fieldLabel false else .ok ()

def normalizeWebhookMethod (method : String) : Except String String :=
  let normalized := toUpper (trimSpace method)
  if normalized = "" then .ok "POST"
  else if normalized = "GET" ∨ normalized = "POST" ∨ normalized = "PUT" then .ok normalized
  else .error "webhook method must be one of: GET, POST, PUT"

def isValidHTTPHeaderName (name : String) : Bool :=
  name.toList.all fun r =>
    ('a' ≤ r && r ≤ 'z') || ('A' ≤ r && r ≤ 'Z') || ('0' ≤ r && r ≤ '9') ||
      "!#$%&'*+-.^_`|~".toList.contains r

/-- `strings.ContainsAny(s, "\r\n")`. -/
def hasLineEnd (s : String) : Bool := s.toList.any fun c => c = '\r' || c = '\n'

/-- The check of `normalizeWebhookHeaders`; Go takes the headers in any order. -/
def normalizeWebhookHeaders : List (String × String) → Except String Unit
  | [] => .ok ()
  | (key, value) :: headers => do
    refuseIf (trimSpace key = "") "webhook headers cannot contain empty key"
    refuseIf (trimSpace key ≠ key) "webhook header name must not contain leading or trailing spaces"
    refuseIf (isValidHTTPHeaderName key = false) "webhook header name contains invalid characters"
    refuseIf (hasLineEnd key = true) "webhook header name contains invalid newline characters"
    refuseIf (hasLineEnd value = true) "webhook header value contains invalid newline characters"
    normalizeWebhookHeaders headers

def validateSMTP (cfg : List (String × Json)) : Except String Unit := do
  refuseIf (readString "host" cfg = "") "smtp channel requires host"
  checkOutboundHost env (readString "host" cfg) "smtp host"
  refuseIf (readString "from_email" cfg = "") "smtp channel requires from_email"
  refuseIf (env.parseAddress (readString "from_email" cfg) = false) "invalid from_email address"
  refuseIf (readString "to_email" cfg = "") "smtp channel requires to_email"
  refuseIf (env.parseAddress (readString "to_email" cfg) = false) "invalid to_email address"
  refuseIf (readInt64 "port" cfg < 0 ∨ readInt64 "port" cfg > 65535)
    "smtp port must be between 0 and 65535"

def validateResend (cfg : List (String × Json)) : Except String Unit := do
  refuseIf (readString "api_key" cfg = "") "resend channel requires api_key"
  refuseIf (readString "from_email" cfg = "") "resend channel requires from_email"
  refuseIf (readString "to_email" cfg = "") "resend channel requires to_email"
  refuseIf (env.parseAddress (readString "from_email" cfg) = false) "invalid from_email address"
  refuseIf (env.parseAddress (readString "to_email" cfg) = false) "invalid to_email address"

def validateTelegram (cfg : List (String × Json)) : Except String Unit := do
  refuseIf (readString "bot_token" cfg = "") "telegram channel requires bot_token"
  refuseIf (readString "chat_id" cfg = "") "telegram channel requires chat_id"

def validateWebhook (cfg : List (String × Json)) : Except String Unit := do
  refuseIf (readString "url" cfg = "") "webhook channel requires url"
  validateOutboundChannelURL env (readString "url" cfg) "webhook url" false
  let method ← normalizeWebhookMethod (readString "method" cfg)
  refuseIf (method = "GET" ∧ trimSpace (readString "secret" cfg) ≠ "")
    "webhook secret is not supported when method is GET"
  normalizeWebhookHeaders (readHeaders cfg)

def validateGotify (cfg : List (String × Json)) : Except String Unit := do
  refuseIf (readString "url" cfg = "") "gotify channel requires url"
  validateOutboundChannelURL env (readString "url" cfg) "gotify url" false
  refuseIf (readString "token" cfg = "") "gotify channel requires token"

def validateNtfy (cfg : List (String × Json)) : Except String Unit := do
  refuseIf (readString "topic" cfg = "") "ntfy channel requires topic"
  checkOptionalURL env (readString "url" cfg) "ntfy url"

def validateBark (cfg : List (String × Json)) : Except String Unit := do
  refuseIf (readString "device_key" cfg = "") "bark channel requires device_key"
  checkOptionalURL env (readString "url" cfg) "bark url"

def validateServerchan (cfg : List (String × Json)) : Except String Unit :=
  refuseIf (readString "send_key" cfg = "") "serverchan channel requires send_key"

/-- Feishu, WeCom and DingTalk: a URL that is a secret itself. -/
def validateWebhookURL (channelType : String) (cfg : List (String × Json)) : Except String Unit := do
  refuseIf (readString "webhook_url" cfg = "") (channelType ++ " channel requires webhook_url")
  validateOutboundChannelURL env (readString "webhook_url" cfg) (channelType ++ " webhook_url") true

def validateFeishu (cfg : List (String × Json)) : Except String Unit :=
  validateWebhookURL env "feishu" cfg
def validateWecom (cfg : List (String × Json)) : Except String Unit := validateWebhookURL env "wecom" cfg
def validateDingtalk (cfg : List (String × Json)) : Except String Unit :=
  validateWebhookURL env "dingtalk" cfg

def validatePushdeer (cfg : List (String × Json)) : Except String Unit := do
  refuseIf (trimSpace (readString "push_key" cfg) = "") "pushdeer channel requires push_key"
  checkOptionalURL env (trimSpace (readString "server_url" cfg)) "pushdeer server_url"

def validatePushplus (cfg : List (String × Json)) : Except String Unit := do
  refuseIf (trimSpace (readString "token" cfg) = "") "pushplus channel requires token"
  checkOptionalURL env (trimSpace (readString "endpoint" cfg)) "pushplus endpoint"

def validatePushover (cfg : List (String × Json)) : Except String Unit := do
  refuseIf (trimSpace (readString "token" cfg) = "") "pushover channel requires token"
  refuseIf (trimSpace (readString "user" cfg) = "") "pushover channel requires user"
  checkOptionalURL env (trimSpace (readString "endpoint" cfg)) "pushover endpoint"

def validateNapcat (cfg : List (String × Json)) : Except String Unit := do
  let url := trimSpace (readString "url" cfg)
  refuseIf (url = "") "napcat channel requires url"
  validateOutboundChannelURL env url "napcat url" false
  let lowered := toLower (trimSpace (readString "message_type" cfg))
  let msgType := if lowered = "" then "private" else lowered
  refuseIf (msgType ≠ "private" ∧ msgType ≠ "group") "napcat message_type must be private or group"
  refuseIf (msgType = "private" ∧ trimSpace (readString "user_id" cfg) = "")
    "napcat channel requires user_id for private messages"
  refuseIf (msgType = "group" ∧ trimSpace (readString "group_id" cfg) = "")
    "napcat channel requires group_id for group messages"

/-- The checks of a channel type, after the decoding. -/
def validateFields : String → List (String × Json) → Except String Unit
  | "smtp" => validateSMTP env
  | "resend" => validateResend env
  | "telegram" => validateTelegram
  | "webhook" => validateWebhook env
  | "gotify" => validateGotify env
  | "ntfy" => validateNtfy env
  | "bark" => validateBark env
  | "serverchan" => validateServerchan
  | "feishu" => validateFeishu env
  | "wecom" => validateWecom env
  | "dingtalk" => validateDingtalk env
  | "pushdeer" => validatePushdeer env
  | "pushplus" => validatePushplus env
  | "pushover" => validatePushover env
  | "napcat" => validateNapcat env
  | _ => fun _ => .ok ()

/-- The members that the struct is decoded from. -/
def membersOf : Option Json → List (String × Json)
  | some (.obj members) => members
  | _ => []

def validateChannelConfig (channelType : String) (config : Option Json) : Except String Unit := do
  refuseIf ((unmarshalMap env config).isNone = true) "config must be valid JSON"
  match channelConfigFields channelType with
  | none => .error "unsupported channel type"
  | some fields =>
    refuseIf (decodeChannelConfigStrict fields (membersOf config) = false)
      ("invalid " ++ channelType ++ " config format")
    validateFields env channelType (membersOf config)

end Validate

/-! ## What is read -/

section Read
variable {before after members : List (String × Json)} {key name other : String} {v w : Json}
  {fields : List (String × FieldKind)}
  {kind : FieldKind}

/-- A key is taken for one field only. -/
theorem matchesField_unique (h : matchesField key name = true)
    (h' : matchesField key other = true) : name = other := by
  apply String.toList_inj.1
  rw [← of_decide_eq_true h, ← of_decide_eq_true h']

/-- One member's part in a string field. -/
def setString (name : String) (value : String) (f : String × Json) : String :=
  match f.2 with
  | .str s => if matchesField f.1 name then s else value
  | _ => value

theorem readString_eq (name : String) (members : List (String × Json)) :
    readString name members = members.foldl (setString name) "" := rfl

theorem setString_of_null {value : String} {f : String × Json}
    (h : matchesField f.1 name = true → f.2 = .null) :
    setString name value f = value := by
  unfold setString
  split
  · rename_i s hs
    rw [if_neg]
    intro hmatch
    rw [h hmatch] at hs
    cases hs
  · rfl

/-- The last member that is not `null` decides. -/
theorem readString_decides (hkey : matchesField key name = true)
    (hafter : ∀ f ∈ after, matchesField f.1 name = true → f.2 = .null) (s : String) :
    readString name (before ++ (key, .str s) :: after) = s := by
  have hlast : ∀ value, after.foldl (setString name) value = value := by
    intro value
    induction after with
    | nil => rfl
    | cons f after ih =>
      rw [List.foldl_cons, setString_of_null (hafter f List.mem_cons_self)]
      exact ih fun g hg => hafter g (List.mem_cons_of_mem f hg)
  rw [readString_eq, List.foldl_append, List.foldl_cons, hlast]
  exact if_pos hkey

theorem decode_accepts (hstrict : decodeChannelConfigStrict fields members = true)
    (hnames : (fields.map (·.1)).Nodup) (hfield : (name, kind) ∈ fields) (hmem : (key, v) ∈ members)
    (hkey : matchesField key name = true) : kind.accepts v = true := by
  obtain ⟨field, hmemField, hboth⟩ := List.any_eq_true.1 (List.all_eq_true.1 hstrict _ hmem)
  rw [Bool.and_eq_true] at hboth
  have hsame : field = (name, kind) :=
    List.inj_on_of_nodup_map hnames hmemField hfield (matchesField_unique hboth.1 hkey)
  rw [hsame] at hboth
  exact hboth.2

theorem accepts_string (h : FieldKind.string.accepts v = true) : v = .null ∨ ∃ s, v = .str s := by
  cases v with
  | null => exact .inl rfl
  | str s => exact .inr ⟨s, rfl⟩
  | bool b => cases h
  | num n => cases h
  | arr vs => cases h
  | obj fs => cases h

/-- What an accepted config went through. -/
theorem validateChannelConfig_ok {env : ConfigEnv} {channelType : String} {config : Option Json}
    (h : validateChannelConfig env channelType config = .ok ()) :
    ∃ fields parsed, channelConfigFields channelType = some fields ∧
    unmarshalMap env config = some parsed ∧
      decodeChannelConfigStrict fields (membersOf config) = true := by
  obtain ⟨_, hvalid, h⟩ := bind_eq_ok h
  cases hparsed : unmarshalMap env config with
  | none =>
    rw [hparsed] at hvalid
    exact absurd rfl (refuseIf_ok hvalid)
  | some parsed =>
    cases hfields : channelConfigFields channelType with
    | none =>
      rw [hfields] at h
      cases h
    | some fields =>
      rw [hfields] at h
      obtain ⟨_, hstrict, -⟩ := bind_eq_ok h
      exact ⟨fields, parsed, rfl, rfl, by simpa using refuseIf_ok hstrict⟩

end Read

end Subdux.Channels
