import Subdux.ChannelSecrets
import Subdux.Lib.MailHeaders
/-!
# Mails of SMTP channels

`buildSMTPMessage` of `internal/service/admin_smtp.go` and `sendSMTP` of
`internal/service/notification_channels_email.go`, up to what `sendSMTPMessage` is given.

`smtp_headers_read_iff`: the header block reads as the five headers exactly when none of the
three configured values has a line end. The validation looks at the two addresses only, and
`mail.ParseAddress` lets a comment have any character.
-/

namespace Subdux.Channels
open GoStrings JsonText Results MailHeaders

/-! ## The message -/

/-- `strings.ReplaceAll(fromName, "\"", "'")`, for one character. -/
def escapeQuote (c : Char) : Char := if c = '\x22' then '\x27' else c

def escapedName (fromName : String) : String := String.ofList (fromName.toList.map escapeQuote)

def fromHeader (fromEmail fromName : String) : String :=
  if trimSpace (escapedName fromName) ≠ ""
    then "\"" ++ escapedName fromName ++ "\" <" ++ fromEmail ++ ">" else fromEmail

def buildSMTPMessage (fromEmail fromName toEmail subject body : String) : String :=
  let headers :=
    ["From: " ++ fromHeader fromEmail fromName, "To: " ++ toEmail, "Subject: " ++ subject,
     "MIME-Version: 1.0",
    "Content-Type: text/plain; charset=UTF-8"]
  "\r\n".intercalate headers ++ "\r\n\r\n" ++ body ++ "\r\n"

/-! ## The sender -/

/-- What a channel sets of `smtpRuntimeConfig`. -/
structure SmtpRuntimeConfig where
  host : String
  port : Int
  username : String
  password : String
  fromEmail : String
  fromName : String
  encryption : String
  authMethod : String
  timeoutSeconds : Int
  skipTLSVerify : Bool

def readBool (name : String) (members : List (String × Json)) : Bool :=
  members.foldl (fun value f => match f.2 with
    | .bool b => if matchesField f.1 name then b else value
    | _ => value) false

/-- `json.Unmarshal` into a struct gives no error: a member that is no field is skipped. -/
def decodeChannelConfig (fields : List (String × FieldKind)) : Option Json → Bool
  | some .null => true
  | some (.obj members) =>
    members.all fun f => fields.all fun field => !matchesField f.1 field.1 || field.2.accepts f.2
  | _ => false

/-- What `sendSMTPMessage` is given: the config, the recipient and the message. -/
def sendSMTP (config : Option Json) (_toEmail message : String) :
    Except String (SmtpRuntimeConfig × String × String) := do
  let cfg := membersOf config
  refuseIf (decodeChannelConfig smtpChannelConfig config = false) "invalid smtp config"
  refuseIf (readString "host" cfg = "") "smtp config requires host"
  refuseIf (readString "from_email" cfg = "") "smtp config requires from_email"
  refuseIf (readString "to_email" cfg = "") "smtp config requires to_email"
  let port := readInt64 "port" cfg
  let encryption := toLower (trimSpace (readString "encryption" cfg))
  let rtCfg : SmtpRuntimeConfig :=
    { host := readString "host" cfg
      port := if port ≤ 0 ∨ port > 65535 then 587 else port
      username := readString "username" cfg
      password := readString "password" cfg
      fromEmail := readString "from_email" cfg
      fromName := readString "from_name" cfg
      encryption := if encryption = "" then "starttls" else encryption
      authMethod := "auto"
      timeoutSeconds := 10
      skipTLSVerify := readBool "skip_tls_verify" cfg }
  .ok (rtCfg, readString "to_email" cfg,
    buildSMTPMessage rtCfg.fromEmail rtCfg.fromName
      (readString "to_email" cfg) "Subscription Reminder" message)

/-- The names and values of the headers that `buildSMTPMessage` writes. -/
def smtpHeaders (fromEmail fromName toEmail subject : String) : List (List Char × List Char) :=
  [("From".toList, (fromHeader fromEmail fromName).toList), ("To".toList, toEmail.toList),
   ("Subject".toList, subject.toList), ("MIME-Version".toList, "1.0".toList),
     ("Content-Type".toList, "text/plain; charset=UTF-8".toList)]

/-- No character of the text ends a line. -/
def OneLine (bareCR : Bool) (s : String) : Prop := ∀ c ∈ s.toList, ¬ EndsLine bareCR c

section Message
variable {fromEmail fromName toEmail subject body : String} {bareCR : Bool} {config : Option Json}
  {env : ConfigEnv}

theorem toList_buildSMTPMessage : (buildSMTPMessage fromEmail fromName toEmail subject body).toList =
    MailHeaders.write (smtpHeaders fromEmail fromName toEmail subject)
    (body.toList ++ ['\r', '\n']) := by
  simp [buildSMTPMessage, smtpHeaders, MailHeaders.write, writeField]

theorem smtpHeaders_names : ∀ f ∈ smtpHeaders fromEmail fromName toEmail subject, IsName f.1 := by
  simp only [smtpHeaders, List.forall_mem_cons, List.not_mem_nil, false_imp_iff, implies_true, and_true]
  refine ⟨?_, ?_, ?_, ?_, ?_⟩ <;> exact ⟨by simp, by simp⟩

/-- The quote is no line end, and does not become one. -/
theorem endsLine_escapeQuote (c : Char) : EndsLine bareCR (escapeQuote c) ↔ EndsLine bareCR c := by
  unfold escapeQuote
  split
  · rename_i hc
    simp [EndsLine, hc]
  · rfl

theorem escapedName_blank : trimSpace (escapedName fromName) = "" ↔ trimSpace fromName = "" := by
  have hspace : ∀ c, isSpace (escapeQuote c) = isSpace c := by
    intro c
    unfold escapeQuote
    split
    · rename_i hc
      rw [hc]
      decide
    · rfl
  rw [escapedName, trimSpace_map hspace, ← String.toList_inj, String.toList_ofList, ← String.toList_inj]
  simp

/-- The `From` header is one line when the address is, and the name if there is one. -/
theorem oneLine_fromHeader : OneLine bareCR (fromHeader fromEmail fromName) ↔
    OneLine bareCR fromEmail ∧ (trimSpace fromName = "" ∨ OneLine bareCR fromName) := by
  unfold fromHeader OneLine
  by_cases hname : trimSpace fromName = ""
  · rw [if_neg (not_not.2 (escapedName_blank.2 hname))]
    exact ⟨fun h => ⟨h, .inl hname⟩, And.left⟩
  · rw [if_pos (mt escapedName_blank.1 hname)]
    have hends : ∀ c : Char, c = '\x22' ∨ c = ' ' ∨ c = '<' ∨ c = '>' → ¬ EndsLine bareCR c := by
      rintro c (rfl | rfl | rfl | rfl) <;> simp [EndsLine]
    have hescaped : (∀ c ∈ (escapedName fromName).toList, ¬ EndsLine bareCR c) ↔
        ∀ c ∈ fromName.toList, ¬ EndsLine bareCR c := by
      simp only [escapedName, String.toList_ofList, List.forall_mem_map, endsLine_escapeQuote]
    simp only [String.toList_append, List.forall_mem_append, hescaped]
    simp only [hname, false_or]
    constructor
    · rintro ⟨⟨⟨⟨-, hname⟩, -⟩, hemail⟩, -⟩
      exact ⟨hemail, hname⟩
    · rintro ⟨hemail, hname⟩
      refine ⟨⟨⟨⟨?_, hname⟩, ?_⟩, hemail⟩, ?_⟩ <;> simp [hends]

theorem oneLine_smtpHeaders (hsubject : OneLine bareCR subject) :
    (∀ f ∈ smtpHeaders fromEmail fromName toEmail subject, ∀ c ∈ f.2, ¬ EndsLine bareCR c) ↔
      OneLine bareCR fromEmail ∧ OneLine bareCR toEmail ∧
        (trimSpace fromName = "" ∨ OneLine bareCR fromName) := by
  have hversion : ∀ c ∈ "1.0".toList, ¬ EndsLine bareCR c := by simp [EndsLine]
  have htype : ∀ c ∈ "text/plain; charset=UTF-8".toList, ¬ EndsLine bareCR c := by simp [EndsLine]
  simp only [smtpHeaders, List.forall_mem_cons]
  constructor
  · rintro ⟨hfrom, hto, -⟩
    obtain ⟨hemail, hname⟩ := oneLine_fromHeader.1 hfrom
    exact ⟨hemail, hto, hname⟩
  · rintro ⟨hemail, hto, hname⟩
    exact ⟨oneLine_fromHeader.2 ⟨hemail, hname⟩, hto, hsubject, hversion, htype, fun f hf =>
      absurd hf List.not_mem_nil⟩

/-- A config that was accepted is one that the sender decodes. -/
theorem decodeChannelConfig_of_valid (h : validateChannelConfig env "smtp" config = .ok ()) :
    decodeChannelConfig smtpChannelConfig config = true := by
  obtain ⟨fields, parsed, hfields, hparsed, hstrict⟩ := validateChannelConfig_ok h
  have facts := typeFacts hfields
  cases hfields
  unfold unmarshalMap at hparsed
  split at hparsed
  · rfl
  · refine List.all_eq_true.2 fun f hf => List.all_eq_true.2 fun field hfield => ?_
    rw [Bool.or_eq_true, Bool.not_eq_true']
    cases hmatch : matchesField f.1 field.1 with
    | false => exact .inl rfl
    | true => exact .inr (decode_accepts hstrict facts.names hfield hf hmatch)
  · cases hparsed

/-- The checks of the validation that the sender repeats. -/
theorem validateSMTP_ok {cfg : List (String × Json)} (h : validateSMTP env cfg = .ok ()) :
    readString "host" cfg ≠ "" ∧ readString "from_email" cfg ≠ "" ∧ readString "to_email" cfg ≠ "" := by
  obtain ⟨_, hhost, h⟩ := bind_eq_ok h
  obtain ⟨_, -, h⟩ := bind_eq_ok h
  obtain ⟨_, hfrom, h⟩ := bind_eq_ok h
  obtain ⟨_, -, h⟩ := bind_eq_ok h
  obtain ⟨_, hto, -⟩ := bind_eq_ok h
  exact ⟨refuseIf_ok hhost, refuseIf_ok hfrom, refuseIf_ok hto⟩

theorem sendSMTP_of_valid (h : validateChannelConfig env "smtp" config = .ok ())
    (toEmail message : String) :
    ∃ rtCfg, sendSMTP config toEmail message = .ok (rtCfg, readString "to_email" (membersOf config),
        buildSMTPMessage rtCfg.fromEmail rtCfg.fromName
          (readString "to_email" (membersOf config)) "Subscription Reminder" message) ∧
      rtCfg.fromEmail = readString "from_email" (membersOf config) ∧
        rtCfg.fromName = readString "from_name" (membersOf config) := by
  have hdecoded := decodeChannelConfig_of_valid h
  obtain ⟨_, -, h⟩ := bind_eq_ok h
  obtain ⟨_, -, h⟩ := bind_eq_ok h
  obtain ⟨hhost, hfrom, hto⟩ := validateSMTP_ok h
  unfold sendSMTP
  simp only [refuseIf, hdecoded, hhost, hfrom, hto, Bool.true_eq_false, if_false]
  exact ⟨_, rfl, rfl, rfl⟩

/-- A reader finds the five headers in the mail of an accepted config exactly when the two
addresses and the name, if there is one, have no line end. -/
theorem smtp_headers_read_iff (env : ConfigEnv) (config : Option Json)
    (h : validateChannelConfig env "smtp" config = .ok ()) (toEmail message : String) :
    ∃ rtCfg recipient mail, sendSMTP config toEmail message = .ok (rtCfg, recipient, mail) ∧
      ∀ bareCR, parse bareCR mail.toList = smtpHeaders rtCfg.fromEmail rtCfg.fromName recipient
        "Subscription Reminder" ↔
        OneLine bareCR (readString "from_email" (membersOf config)) ∧
          OneLine bareCR (readString "to_email" (membersOf config)) ∧
          (trimSpace (readString "from_name" (membersOf config)) = "" ∨
            OneLine bareCR (readString "from_name" (membersOf config))) := by
  obtain ⟨rtCfg, hsend, hemail, hname⟩ := sendSMTP_of_valid h toEmail message
  refine ⟨rtCfg, _, _, hsend, fun bareCR => ?_⟩
  have hsubject : OneLine bareCR "Subscription Reminder" := by simp [OneLine, EndsLine]
  rw [toList_buildSMTPMessage, parse_write_iff smtpHeaders_names, oneLine_smtpHeaders hsubject,
    hemail, hname]

/-! ### Samples -/

/-- An env that takes every address and, for a host, no look at the settings. -/
def sampleSmtpEnv : ConfigEnv := ⟨fun _ => none, fun _ => true, some, none⟩

def sampleSmtp (fromName : String) : Option Json :=
  some (.obj [("host", .str "mail.example.com"), ("from_email", .str "a@example.com"),
    ("from_name", .str fromName),
    ("to_email", .str "b@example.com")])

theorem smtp_headers_read_plain :
    ∃ rtCfg recipient mail, sendSMTP (sampleSmtp "Reminders") "" "Due" = .ok (rtCfg, recipient, mail) ∧
    parse true mail.toList = smtpHeaders rtCfg.fromEmail rtCfg.fromName recipient
    "Subscription Reminder" := by
  obtain ⟨rtCfg, recipient, mail, hsend, hread⟩ :=
    smtp_headers_read_iff sampleSmtpEnv (sampleSmtp "Reminders")
      (accepted_of (by decide +kernel)) "" "Due"
  have hvalues : [readString "from_email" (membersOf (sampleSmtp "Reminders")),
      readString "to_email" (membersOf (sampleSmtp "Reminders")),
      readString "from_name" (membersOf (sampleSmtp "Reminders"))] =
        ["a@example.com", "b@example.com", "Reminders"] := by
    decide +kernel
  simp only [List.cons.injEq] at hvalues
  obtain ⟨hemail, hto, hname, -⟩ := hvalues
  refine ⟨rtCfg, recipient, mail, hsend, (hread true).2 ?_⟩
  rw [hemail, hto, hname]
  simp [OneLine, EndsLine]

/-- A name with a line break adds a header. -/
theorem smtp_header_added :
    ¬ ∀ (env : ConfigEnv) (config : Option Json) (toEmail message : String),
    validateChannelConfig env "smtp" config = .ok () →
      ∀ rtCfg recipient mail, sendSMTP config toEmail message = .ok (rtCfg, recipient, mail) →
        parse false mail.toList = smtpHeaders rtCfg.fromEmail rtCfg.fromName recipient
          "Subscription Reminder" := by
  intro h
  have hvalid : validateChannelConfig sampleSmtpEnv "smtp"
      (sampleSmtp "x\r\nBcc: e@example.com") = .ok () :=
    accepted_of (by decide +kernel)
  obtain ⟨rtCfg, hsend, hemail, hname⟩ := sendSMTP_of_valid hvalid "" "Due"
  have hread := congrArg List.length (h sampleSmtpEnv _ "" "Due" hvalid _ _ _ hsend)
  rw [hemail, hname] at hread
  revert hread
  decide +kernel

end Message

end Subdux.Channels
