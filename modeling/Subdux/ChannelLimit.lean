import Subdux.ImportLoops
import Subdux.Lib.Results
import Subdux.Lib.Rows
import Subdux.Lib.Runs
/-!
# The limit on enabled channels

`CreateChannel` and `UpdateChannel` of `internal/service/notification_channel_ops.go`, and
the confirmed `ImportFromSubdux` as another writer of `notification_channels`. A call that
enables a channel counts the enabled ones in one statement and writes in a later one, so
calls overlap between the two (`ChannelSystem`); an import is one transaction. What
`UpdateChannel` reads at its end changes nothing and is left out.
-/

namespace Subdux.ImportService
open GoStrings Rows Results Upserts
open Runs (Path exec)

def maxEnabledNotificationChannels : Nat := 3

structure CreateChannelInput where
  type : String
  enabled : Bool
  config : String

structure UpdateChannelInput where
  enabled : Option Bool
  config : Option String
  clearedSecretFields : List String
  clearedWebhookHeaderKeys : List String

/-- The JSON package for objects, and the merge of a config with the stored one's secrets. -/
structure ChannelEnv (Nonce Value : Type) extends ImportEnv Nonce Value where
  unmarshalMap : String → Option Value
  mergeNotificationConfigWithExistingSecrets : String → String → String → List String →
    List String → Except String String

inductive ChannelError where
  | invalidType
  | config (err : String)
  | encrypt
  | limit
  | notFound
  | database
  deriving DecidableEq

def ChannelError.text : ChannelError → String
  | .invalidType =>
    "invalid channel type, must be one of: smtp, resend, telegram, webhook, gotify, ntfy, bark, serverchan, " ++
      "feishu, wecom, dingtalk, pushdeer, pushplus, pushover, napcat"
  | .config err => err
  | .encrypt => "failed to encrypt notification channel config"
  | .limit =>
    "you can enable at most " ++ toString maxEnabledNotificationChannels ++ " notification channels"
  | .notFound => "channel not found"
  | .database => "database error"

section Model
variable {Nonce Value : Type}

/-! ## The config of a call -/

def parseNotificationConfigMap (env : ChannelEnv Nonce Value) (raw : String) :
    Except ChannelError Value :=
  match env.unmarshalMap (if trimSpace raw = "" then "\x7b\x7d" else trimSpace raw) with
  | none => .error (.config "config must be valid JSON")
  | some parsed => .ok parsed

def parseAndNormalizeConfig (env : ChannelEnv Nonce Value) (config : String) :
    Except ChannelError String :=
  parseNotificationConfigMap env config >>= fun parsed =>
    match env.marshal parsed with
    | none => .error (.config "config cannot be encoded")
    | some encoded => .ok encoded

/-- The checks of a config and its encryption. -/
def checkAndEncrypt (env : ChannelEnv Nonce Value) (nonce : Nonce) (channelType config : String) :
    Except ChannelError String :=
  match env.validateChannelConfig channelType config with
  | .error err => .error (.config err)
  | .ok () =>
    match encryptNotificationChannelConfig env.toImportEnv nonce config with
    | none => .error .encrypt
    | some encryptedConfig => .ok encryptedConfig

/-! ## Calls that overlap -/

/-- The write a call has come to. -/
inductive ChannelWrite where
  | create (userID : Nat) (channelType : String) (input : CreateChannelInput)
  | update (channel : Row NotificationChannel) (input : UpdateChannelInput)

inductive ChannelCall where
  | selecting (userID channelID : Nat) (input : UpdateChannelInput)
  | counting (write : ChannelWrite)
  | writing (write : ChannelWrite)
  | done (result : Except ChannelError Unit)

structure ChannelSystem where
  db : ImportDB
  calls : Nat → Option ChannelCall

inductive ChannelEvent (Nonce : Type) where
  | createChannel (i userID : Nat) (input : CreateChannelInput)
  | updateChannel (i userID channelID : Nat) (input : UpdateChannelInput)
  | select (i : Nat) (fails : Bool)
  | count (i : Nat) (fails : Bool)
  | write (i : Nat) (nonce : Nonce) (fails : Bool)
  /-- A confirmed import. -/
  | importSubdux (userID : Nat) (readings : ImportReadings Nonce) (data : SubduxImportData)

def ChannelWrite.userID : ChannelWrite → Nat
  | .create userID _ _ => userID
  | .update channel _ => channel.columns.userID

/-- `Where("user_id = ? AND enabled = ?", userID, true)`. -/
def isEnabledOf (userID : Nat) (channel : NotificationChannel) : Bool :=
  channel.userID = userID && channel.enabled

def enabledCount (channels : Table NotificationChannel) (userID : Nat) : Nat :=
  channels.columns.countP (isEnabledOf userID)

/-- The columns that `UpdateChannel` sets. -/
def UpdateChannelInput.apply (input : UpdateChannelInput) (encryptedConfig : Option String)
    (channel : NotificationChannel) :
    NotificationChannel :=
  { channel with
    enabled := input.enabled.getD channel.enabled, config := encryptedConfig.getD channel.config }

/-- The table after a write. -/
def ChannelWrite.run (env : ChannelEnv Nonce Value) (nonce : Nonce)
    (channels : Table NotificationChannel) :
    ChannelWrite → Except ChannelError (Table NotificationChannel)
  | .create userID channelType input =>
    parseAndNormalizeConfig env input.config >>= fun canonicalConfig =>
      checkAndEncrypt env nonce channelType canonicalConfig >>= fun encryptedConfig =>
        .ok ⟨channels.rows ++
          [⟨channels.nextID, ⟨userID, channelType, input.enabled, encryptedConfig⟩⟩],
           channels.nextID + 1⟩
  | .update channel input =>
    let encryptedConfig : Except ChannelError (Option String) :=
      match input.config with
      | none => .ok none
      | some config =>
        match env.mergeNotificationConfigWithExistingSecrets channel.columns.type
          channel.columns.config config
            input.clearedSecretFields input.clearedWebhookHeaderKeys with
        | .error err => .error (.config err)
        | .ok mergedConfig => (checkAndEncrypt env nonce channel.columns.type mergedConfig).map some
    encryptedConfig >>= fun encryptedConfig =>
      let set (row : Row NotificationChannel) :=
        { row with columns := input.apply encryptedConfig row.columns }
      .ok { channels with rows := updateWhere (·.id = channel.id) set channels.rows }

def ChannelSystem.setCall (s : ChannelSystem) (i : Nat) (call : ChannelCall) : ChannelSystem :=
  { s with calls := Runs.set s.calls i (some call) }

def ChannelSystem.setChannels (s : ChannelSystem) (channels : Table NotificationChannel) :
    ChannelSystem :=
  { s with db := { s.db with channels := channels } }

def ChannelSystem.step (env : ChannelEnv Nonce Value) (s : ChannelSystem) :
    ChannelEvent Nonce → Option ChannelSystem
  | .createChannel i userID input =>
    match s.calls i with
    | some _ => none
    | none =>
      let channelType := lowerTrimmed input.type
      let write := ChannelWrite.create userID channelType input
      some (s.setCall i (if !isValidChannelType channelType then .done (.error .invalidType)
        else if input.enabled then .counting write else .writing write))
  | .updateChannel i userID channelID input =>
    match s.calls i with
    | some _ => none
    | none => some (s.setCall i (.selecting userID channelID input))
  | .select i fails =>
    match s.calls i with
    | some (.selecting userID channelID input) =>
      some (s.setCall i (
        if fails then .done (.error .database)
        else match s.db.channels.rows.find?
          (fun row => row.id = channelID && row.columns.userID = userID) with
          | none => .done (.error .notFound)
          | some channel =>
            if input.enabled = some true ∧ channel.columns.enabled = false then
              .counting (.update channel input)
            else .writing (.update channel input)))
    | _ => none
  | .count i fails =>
    match s.calls i with
    | some (.counting write) =>
      some (s.setCall i (
        if fails then .done (.error .database)
        else if maxEnabledNotificationChannels ≤ enabledCount s.db.channels write.userID then
          .done (.error .limit)
        else .writing write))
    | _ => none
  | .write i nonce fails =>
    match s.calls i with
    | some (.writing write) =>
      some (match write.run env nonce s.db.channels with
        | .error err => s.setCall i (.done (.error err))
        | .ok channels =>
          if fails then s.setCall i (.done (.error .database))
            else (s.setChannels channels).setCall i (.done (.ok ())))
    | _ => none
  | .importSubdux userID readings data =>
    match importFromSubdux env.toImportEnv readings userID data true s.db with
    | .error _ => some s
    | .ok (_, db) => some { s with db := db }

/-! ## Counts that still hold -/

/-- The channels that a file adds: those that are the first of their key in it and are not stored. -/
def newChannels (env : ChannelEnv Nonce Value) (readings : ImportReadings Nonce) (userID : Nat)
    (data : SubduxImportData) (channels : Table NotificationChannel) : List NotificationChannel :=
  (itemUpsert (fun item : NotificationChannel × Nat => prepareChannel env.toImportEnv
    (subduxImportSecretsRedacted data) userID
    item.1 (readings.nonce item.2)) fun _ _ => false).missing channels.columns [] data.channels.zipIdx

/-- The system with a note for each call that is about to write: whether its user got
another enabled channel since the call counted. -/
structure ChannelHistory where
  system : ChannelSystem
  outdated : Nat → Bool

def ChannelHistory.outdatedAfter (h : ChannelHistory) (t : ChannelSystem) (i : Nat) : Bool :=
  match h.system.calls i with
  | some (.writing write) =>
    h.outdated i || decide
      (enabledCount h.system.db.channels write.userID < enabledCount t.db.channels write.userID)
  | _ => false

def ChannelHistory.step (env : ChannelEnv Nonce Value) (h : ChannelHistory)
    (e : ChannelEvent Nonce) : Option ChannelHistory :=
  (h.system.step env e).map fun t => ⟨t, h.outdatedAfter t⟩

/-- What a write relies on: a call that counted on its count, and one that found its
channel enabled, and so did not count, on its being enabled still. -/
def ChannelWrite.Undisturbed (channels : Table NotificationChannel) (outdated : Bool) :
    ChannelWrite → Prop
  | .create _ _ input => input.enabled = true → outdated = false
  | .update channel input => input.enabled = some true →
      if channel.columns.enabled then ∀ row ∈ channels.rows, row.id = channel.id →
        row.columns.enabled = true else outdated = false

def ChannelCall.Undisturbed (channels : Table NotificationChannel) (outdated : Bool) : ChannelCall → Prop
  | .writing write => write.Undisturbed channels outdated
  | _ => True

/-- No other write comes in between that makes a count wrong, and a file, which counts
nothing, brings in no more enabled channels than there is room for. -/
def Uncrossed (env : ChannelEnv Nonce Value) (h : ChannelHistory) : ChannelEvent Nonce → Prop
  | .write i _ _ => ∀ call ∈ h.system.calls i, call.Undisturbed h.system.db.channels (h.outdated i)
  | .importSubdux userID readings data =>
    enabledCount h.system.db.channels userID +
      (newChannels env readings userID data h.system.db.channels).countP (·.enabled) ≤
      maxEnabledNotificationChannels
  | _ => True

instance (channels : Table NotificationChannel) (outdated : Bool) (call : ChannelCall) :
    Decidable (call.Undisturbed channels outdated) :=
  match call with
  | .writing (.create _ _ input) => inferInstanceAs (Decidable (input.enabled = true → outdated = false))
  | .writing (.update channel input) =>
    inferInstanceAs (Decidable (input.enabled = some true →
      if channel.columns.enabled then ∀ row ∈ channels.rows, row.id = channel.id →
        row.columns.enabled = true else outdated = false))
  | .selecting _ _ _ | .counting _ | .done _ => isTrue trivial

instance (env : ChannelEnv Nonce Value) (h : ChannelHistory) (e : ChannelEvent Nonce) :
    Decidable (Uncrossed env h e) := by
  cases e <;> unfold Uncrossed <;> infer_instance

end Model

/-! ## What every state keeps -/

section Tables
variable {ι α χ : Type} {prepare : ι → Except Refusal (Prepared α χ)} {conflict : α → α → Bool}
  {table : Table α}

/-- The primary keys are unique, and the next one is free. -/
structure Keyed (table : Table α) : Prop where
  ids : (table.rows.map (·.id)).Nodup
  below : ∀ row ∈ table.rows, row.id < table.nextID

theorem Keyed.append (h : Keyed table) (columns : α) :
    Keyed ⟨table.rows ++ [⟨table.nextID, columns⟩], table.nextID + 1⟩ where
  ids := by
    rw [List.map_append, List.map_singleton, List.nodup_append]
    refine ⟨h.ids, List.nodup_singleton _, ?_⟩
    rintro id hid _ hnew rfl
    obtain ⟨row, hrow, rfl⟩ := List.mem_map.1 hid
    have hlt := h.below row hrow
    rw [List.mem_singleton.1 hnew] at hlt
    exact Nat.lt_irrefl _ hlt
  below := by
    intro row hrow
    rcases List.mem_append.1 hrow with hrow | hrow
    · exact Nat.lt_succ_of_lt (h.below row hrow)
    · rw [List.mem_singleton.1 hrow]
      exact Nat.lt_succ_self _

theorem Keyed.loopState (h : Keyed table) (items : List ι) :
    Keyed (loopState true prepare conflict table items).table := by
  induction items using List.reverseRecOn with
  | nil => exact h
  | append_singleton items i ih =>
    rw [(loopState_spec true items i).table]
    cases inserted prepare conflict true
      (ImportService.loopState true prepare conflict table items).table items i with
    | none => exact ih
    | some columns => exact ih.append columns

end Tables

section Invariant
variable {Nonce Value : Type} {env : ChannelEnv Nonce Value} {s t : ChannelSystem}
  {channels channels' : Table NotificationChannel}
  {userID i : Nat} {nonce : Nonce} {readings : ImportReadings Nonce} {data : SubduxImportData}

/-- The keys are in order, and no user has too many channels enabled. -/
structure ChannelInv (channels : Table NotificationChannel) : Prop where
  keyed : Keyed channels
  limit : ∀ userID, enabledCount channels userID ≤ maxEnabledNotificationChannels

/-- A write finds room for the channel that it enables. -/
def ChannelWrite.HasRoom (channels : Table NotificationChannel) : ChannelWrite → Prop
  | .create userID _ input =>
    input.enabled = true → enabledCount channels userID < maxEnabledNotificationChannels
  | .update channel input =>
    input.enabled = some true → ∀ row ∈ channels.rows, row.id = channel.id →
    row.columns.enabled = false →
      enabledCount channels row.columns.userID < maxEnabledNotificationChannels

theorem prepareChannel_userID {item : Prepared NotificationChannel PreviewChannelChange}
    {incoming row : NotificationChannel} {secretsRedacted : Bool}
    (h : prepareChannel env.toImportEnv secretsRedacted userID incoming nonce = .ok item)
    (hrow : item.create = .ok row) : row.userID = userID := by
  unfold prepareChannel at h
  dsimp only at h
  split at h
  · cases h
  · split at h
    · cases h
    · split at h
      · cases h
      · split at h
        · cases h
        · obtain rfl := Except.ok.inj h
          dsimp only at hrow
          split at hrow
          · cases hrow
          · rw [← Except.ok.inj hrow]

theorem userID_of_newChannels {channel : NotificationChannel}
    (h : channel ∈ newChannels env readings userID data channels) :
    channel.userID = userID := by
  obtain ⟨i, -, hrow⟩ := Upsert.row_of_missing h
  simp only [itemUpsert, Option.bind_eq_some_iff] at hrow
  obtain ⟨item, hitem, hcreate⟩ := hrow
  cases hprepare : prepareChannel env.toImportEnv (subduxImportSecretsRedacted data) userID i.1
    (readings.nonce i.2) with
  | error refusal =>
    rw [hprepare] at hitem
    cases hitem
  | ok prepared =>
    rw [hprepare] at hitem
    obtain rfl := Option.some.inj hitem
    cases hrow : prepared.create with
    | error err =>
      rw [hrow] at hcreate
      cases hcreate
    | ok row =>
      rw [hrow] at hcreate
      obtain rfl := Option.some.inj hcreate
      exact prepareChannel_userID hprepare hrow

theorem importFromSubdux_channels {db db' : ImportDB} {response : SubduxImportResponse}
    (h : importFromSubdux env.toImportEnv readings userID data true db = .ok (response, db')) :
    db'.channels = (importChannels env.toImportEnv readings
      (subduxImportSecretsRedacted data) userID true db data.channels).table := by
  unfold importFromSubdux at h
  split at h
  · cases h
  · rw [if_pos rfl] at h
    obtain ⟨-, rfl⟩ := Prod.mk.inj (Except.ok.inj h)
    rfl

/-- An import that finds room for what it adds. -/
theorem ChannelInv.imported {db : ImportDB} (h : ChannelInv db.channels)
    (hroom : enabledCount db.channels userID +
      (newChannels env readings userID data db.channels).countP (·.enabled) ≤
      maxEnabledNotificationChannels) :
    ChannelInv (importChannels env.toImportEnv readings
      (subduxImportSecretsRedacted data) userID true db data.channels).table := by
  constructor
  · exact h.keyed.loopState _
  · intro user
    have hle : enabledCount
        (importChannels env.toImportEnv readings (subduxImportSecretsRedacted data) userID true db
        data.channels).table user ≤ enabledCount db.channels user +
          (newChannels env readings userID data db.channels).countP (isEnabledOf user) := by
      let prepare (item : NotificationChannel × Nat) :=
        prepareChannel env.toImportEnv (subduxImportSecretsRedacted data) userID item.1
          (readings.nonce item.2)
      let upsert := itemUpsert prepare fun _ _ => false
      have hcolumns : (loopState true prepare
          (fun _ _ => false) db.channels data.channels.zipIdx).table.columns =
          upsert.run db.channels.columns data.channels.zipIdx := loopState_columns _
      have hrun : (upsert.run db.channels.columns data.channels.zipIdx).countP (isEnabledOf user) ≤
          db.channels.columns.countP (isEnabledOf user) +
            (upsert.missing db.channels.columns [] data.channels.zipIdx).countP
              (isEnabledOf user) := Upsert.countP_run_le _
      rw [← hcolumns] at hrun
      exact hrun
    by_cases huser : user = userID
    · subst huser
      have hmono : (newChannels env readings user data db.channels).countP (isEnabledOf user) ≤
          (newChannels env readings user data db.channels).countP (·.enabled) := by
        apply List.countP_mono_left
        intro channel _ henabled
        exact (Bool.and_eq_true_iff.1 henabled).2
      omega
    · have hnone : (newChannels env readings userID data db.channels).countP (isEnabledOf user) = 0 := by
        rw [List.countP_eq_zero]
        intro channel hchannel henabled
        have howner := userID_of_newChannels hchannel
        have hsame := (Bool.and_eq_true_iff.1 henabled).1
        exact huser ((of_decide_eq_true hsame).symm.trans howner)
      have hlimit := h.limit user
      omega

theorem Table.columns_updateWhere (p : Row NotificationChannel → Bool)
    (f : NotificationChannel → NotificationChannel) (q : NotificationChannel → Bool) :
    ({ channels with
      rows := updateWhere p (fun row => { row with columns := f row.columns }) channels.rows } :
      Table NotificationChannel).columns.countP q =
      (updateWhere p (fun row => { row with columns := f row.columns }) channels.rows).countP
        fun row => q row.columns := by
  rw [Table.columns, List.countP_map]
  rfl

/-- A write that finds room. -/
theorem ChannelInv.write {write : ChannelWrite} (h : ChannelInv channels)
    (hroom : write.HasRoom channels) (hrun : write.run env nonce channels = .ok channels') :
    ChannelInv channels' := by
  cases write with
  | create userID channelType input =>
    rw [ChannelWrite.run] at hrun
    obtain ⟨canonicalConfig, -, hrun⟩ := bind_eq_ok hrun
    obtain ⟨encryptedConfig, -, hrun⟩ := bind_eq_ok hrun
    obtain rfl := Except.ok.inj hrun
    refine ⟨h.keyed.append _, fun user => ?_⟩
    have hlimit := h.limit user
    have hcount : enabledCount
        ⟨channels.rows ++ [⟨channels.nextID, ⟨userID, channelType, input.enabled, encryptedConfig⟩⟩],
        channels.nextID + 1⟩ user = enabledCount channels user + if userID = user ∧
          input.enabled = true then 1 else 0 := by
      simp [enabledCount, Table.columns, isEnabledOf, List.countP_append, List.countP_singleton]
    rw [hcount]
    -- a new enabled channel takes the room that was there
    split
    · rename_i hnew
      have hfree := hroom hnew.2
      rw [hnew.1] at hfree
      omega
    · omega
  | update channel input =>
    rw [ChannelWrite.run] at hrun
    dsimp only at hrun
    obtain ⟨encryptedConfig, -, hrun⟩ := bind_eq_ok hrun
    obtain rfl := Except.ok.inj hrun
    have hselected : affected
        (fun row : Row NotificationChannel => decide (row.id = channel.id)) channels.rows ≤ 1 :=
      affected_le_one h.keyed.ids fun row hrow => of_decide_eq_true hrow
    -- the ids stay as they are; the count of a user grows by one at the most
    constructor
    · constructor
      · have hmap : (updateWhere (fun row : Row NotificationChannel => decide (row.id = channel.id))
            (fun row => { row with columns := input.apply encryptedConfig row.columns })
              channels.rows).map (·.id) =
            channels.rows.map (·.id) :=
              map_updateWhere (fun row : Row NotificationChannel => row.id) fun _ => rfl
        exact hmap ▸ h.keyed.ids
      · intro row hrow
        rcases mem_updateWhere_cases hrow with ⟨hmem, -⟩ | ⟨old, hold, -, rfl⟩
        · exact h.keyed.below row hmem
        · exact h.keyed.below old hold
    · intro user
      have hlimit := h.limit user
      rw [enabledCount, Table.columns, List.countP_map] at hlimit
      rw [enabledCount, Table.columns_updateWhere]
      by_cases hraised : ∃ row ∈ channels.rows, row.id = channel.id ∧ input.enabled = some true ∧
        row.columns.enabled = false ∧
          row.columns.userID = user
      · -- the update enables a channel of the user
        obtain ⟨row, hrow, hid, henables, hdisabled, rfl⟩ := hraised
        have hfree := hroom henables row hrow hid hdisabled
        rw [enabledCount, Table.columns, List.countP_map] at hfree
        refine (countP_updateWhere_le _).trans ?_
        have hcount : channels.rows.countP
            (fun r => isEnabledOf row.columns.userID r.columns) < maxEnabledNotificationChannels := hfree
        omega
      · refine le_trans (countP_updateWhere_le_of fun row hrow hid henabled => ?_) hlimit
        obtain ⟨howner, henabled⟩ := Bool.and_eq_true_iff.1 henabled
        have howner : row.columns.userID = user := of_decide_eq_true howner
        simp only [UpdateChannelInput.apply] at henabled
        rw [isEnabledOf, Bool.and_eq_true, decide_eq_true_eq]
        refine ⟨howner, ?_⟩
        by_contra hdisabled
        rw [Bool.not_eq_true] at hdisabled
        apply hraised
        refine ⟨row, hrow, of_decide_eq_true hid, ?_, hdisabled, howner⟩
        cases hinput : input.enabled with
        | none =>
          rw [hinput, Option.getD_none, hdisabled] at henabled
          cases henabled
        | some value =>
          rw [hinput, Option.getD_some] at henabled
          rw [henabled]

/-! ### Whose channel an update writes -/

/-- Rows keep their key and their user, and new ones have new keys. -/
structure Evolves (channels channels' : Table NotificationChannel) : Prop where
  nextID : channels.nextID ≤ channels'.nextID
  rows : ∀ row' ∈ channels'.rows, channels.nextID ≤ row'.id ∨
    ∃ row ∈ channels.rows, row.id = row'.id ∧ row.columns.userID = row'.columns.userID

theorem Evolves.refl (channels : Table NotificationChannel) : Evolves channels channels :=
  ⟨Nat.le_refl _, fun row hrow => .inr ⟨row, hrow, rfl, rfl⟩⟩

theorem Evolves.append (h : Evolves channels channels') (columns : NotificationChannel) :
    Evolves channels ⟨channels'.rows ++ [⟨channels'.nextID, columns⟩], channels'.nextID + 1⟩ := by
  refine ⟨Nat.le_succ_of_le h.nextID, fun row hrow => ?_⟩
  rcases List.mem_append.1 hrow with hrow | hrow
  · exact h.rows row hrow
  · rw [List.mem_singleton.1 hrow]
    exact .inl h.nextID

theorem evolves_loopState {ι χ : Type} {prepare : ι → Except Refusal (Prepared NotificationChannel χ)}
    {conflict : NotificationChannel → NotificationChannel → Bool}
    (channels : Table NotificationChannel) (items : List ι) :
    Evolves channels (loopState true prepare conflict channels items).table := by
  induction items using List.reverseRecOn with
  | nil => exact .refl channels
  | append_singleton items i ih =>
    rw [(loopState_spec true items i).table]
    cases inserted prepare conflict true
      (loopState true prepare conflict channels items).table items i with
    | none => exact ih
    | some columns => exact ih.append columns

theorem ChannelWrite.run_evolves {write : ChannelWrite}
    (hrun : write.run env nonce channels = .ok channels') :
    Evolves channels channels' := by
  cases write with
  | create userID channelType input =>
    rw [ChannelWrite.run] at hrun
    obtain ⟨canonicalConfig, -, hrun⟩ := bind_eq_ok hrun
    obtain ⟨encryptedConfig, -, hrun⟩ := bind_eq_ok hrun
    obtain rfl := Except.ok.inj hrun
    exact (Evolves.refl channels).append _
  | update channel input =>
    rw [ChannelWrite.run] at hrun
    dsimp only at hrun
    obtain ⟨encryptedConfig, -, hrun⟩ := bind_eq_ok hrun
    obtain rfl := Except.ok.inj hrun
    refine ⟨Nat.le_refl _, fun row hrow => .inr ?_⟩
    rcases mem_updateWhere_cases hrow with ⟨hmem, -⟩ | ⟨old, hold, -, rfl⟩
    · exact ⟨row, hmem, rfl, rfl⟩
    · exact ⟨old, hold, rfl, rfl⟩

/-- The channel of an update belongs to the user whose channels the call counts. -/
def ChannelWrite.Owned (channels : Table NotificationChannel) : ChannelWrite → Prop
  | .create _ _ _ => True
  | .update channel _ =>
    channel.id < channels.nextID ∧ ∀ row ∈ channels.rows, row.id = channel.id →
      row.columns.userID = channel.columns.userID

theorem ChannelWrite.Owned.evolves {write : ChannelWrite} (h : write.Owned channels)
    (hrows : Evolves channels channels') :
    write.Owned channels' := by
  cases write with
  | create userID channelType input => trivial
  | update channel input =>
    obtain ⟨hold, howner⟩ := h
    refine ⟨Nat.lt_of_lt_of_le hold hrows.nextID, fun row' hrow' hid => ?_⟩
    rcases hrows.rows row' hrow' with hnew | ⟨row, hrow, hsame, huser⟩
    · omega
    · rw [← huser]
      exact howner row hrow (hsame.trans hid)

/-! ### What a call comes to -/

/-- The call counts before it writes. -/
def ChannelWrite.Counts : ChannelWrite → Prop
  | .create _ _ input => input.enabled = true
  | .update channel input => input.enabled = some true ∧ channel.columns.enabled = false

/-- An update writes to a row that it has read. -/
def ChannelWrite.Read (channels : Table NotificationChannel) : ChannelWrite → Prop
  | .create _ _ _ => True
  | .update channel _ => channel ∈ channels.rows

/-- Where a call may be after a step of its own that writes nothing. -/
inductive Reaches (s : ChannelSystem) (i : Nat) : ChannelCall → Prop where
  | selecting (userID channelID : Nat) (input : UpdateChannelInput) : Reaches s i
    (.selecting userID channelID input)
  | done (result : Except ChannelError Unit) : Reaches s i (.done result)
  | counting {write : ChannelWrite} (hread : write.Read s.db.channels) : Reaches s i (.counting write)
  | uncounted {write : ChannelWrite} (hread : write.Read s.db.channels)
    (hcounts : ¬ write.Counts) : Reaches s i (.writing write)
  | counted {write : ChannelWrite} (hcall : s.calls i = some (.counting write))
      (hroom : enabledCount s.db.channels write.userID < maxEnabledNotificationChannels) : Reaches s
        i (.writing write)

/-- What a step does. -/
inductive ChannelStep (env : ChannelEnv Nonce Value) (s : ChannelSystem) :
    ChannelEvent Nonce → ChannelSystem → Prop where
  | moved {e : ChannelEvent Nonce} (i : Nat) {call : ChannelCall}
    (hcall : Reaches s i call) : ChannelStep env s e (s.setCall i call)
  | wrote (i : Nat) (nonce : Nonce) {write : ChannelWrite} {channels : Table NotificationChannel}
      (hcall : s.calls i = some (.writing write))
        (hrun : write.run env nonce s.db.channels = .ok channels) :
      ChannelStep env s (.write i nonce false) ((s.setChannels channels).setCall i (.done (.ok ())))
  | refused (userID : Nat) (readings : ImportReadings Nonce) (data : SubduxImportData) :
      ChannelStep env s (.importSubdux userID readings data) s
  | imported (userID : Nat) (readings : ImportReadings Nonce) (data : SubduxImportData)
    {response : SubduxImportResponse} {db : ImportDB}
      (himport : importFromSubdux env.toImportEnv readings userID data true s.db = .ok (response, db)) :
      ChannelStep env s (.importSubdux userID readings data) { s with db := db }

theorem ChannelSystem.step_cases {e : ChannelEvent Nonce} (h : s.step env e = some t) :
    ChannelStep env s e t := by
  cases e with
  | createChannel i userID input =>
    simp only [ChannelSystem.step] at h
    split at h
    · cases h
    · obtain rfl := Option.some.inj h
      apply ChannelStep.moved
      split
      · exact .done _
      · split
        · exact .counting trivial
        · rename_i hdisabled
          exact .uncounted trivial hdisabled
  | updateChannel i userID channelID input =>
    simp only [ChannelSystem.step] at h
    split at h
    · cases h
    · obtain rfl := Option.some.inj h
      exact .moved i (.selecting userID channelID input)
  | select i fails =>
    simp only [ChannelSystem.step] at h
    split at h
    · obtain rfl := Option.some.inj h
      apply ChannelStep.moved
      split
      · exact .done _
      · split
        · exact .done _
        · rename_i channel hfind
          have hread : channel ∈ s.db.channels.rows := List.mem_of_find?_eq_some hfind
          split
          · exact .counting hread
          · rename_i hcounts
            exact .uncounted hread hcounts
    · cases h
  | count i fails =>
    simp only [ChannelSystem.step] at h
    split at h
    · rename_i write hcall
      obtain rfl := Option.some.inj h
      apply ChannelStep.moved
      split
      · exact .done _
      · split
        · exact .done _
        · rename_i hroom
          exact .counted hcall (not_le.1 hroom)
    · cases h
  | write i nonce fails =>
    simp only [ChannelSystem.step] at h
    split at h
    · rename_i write hcall
      obtain rfl := Option.some.inj h
      split
      · exact .moved i (.done _)
      · rename_i channels hrun
        split
        · exact .moved i (.done _)
        · rename_i hfails
          rw [Bool.not_eq_true] at hfails
          rw [hfails]
          exact .wrote i nonce hcall hrun
    · cases h
  | importSubdux userID readings data =>
    simp only [ChannelSystem.step] at h
    split at h
    · obtain rfl := Option.some.inj h
      exact .refused userID readings data
    · rename_i response db himport
      obtain rfl := Option.some.inj h
      exact .imported userID readings data himport

/-! ### Every run -/

/-- What a call knows: whose channel it writes and, while its count holds, that there is room. -/
def ChannelCall.Ready (channels : Table NotificationChannel) (outdated : Bool) : ChannelCall → Prop
  | .counting write => write.Owned channels
  | .writing write => write.Owned channels ∧
      (write.Counts → outdated = false →
        enabledCount channels write.userID < maxEnabledNotificationChannels)
  | _ => True

structure ChannelHistoryInv (h : ChannelHistory) : Prop where
  channels : ChannelInv h.system.db.channels
  calls : ∀ i call, h.system.calls i = some call → call.Ready h.system.db.channels (h.outdated i)

theorem ChannelWrite.owned_of_read {write : ChannelWrite} (hkeyed : Keyed channels)
    (hread : write.Read channels) :
    write.Owned channels := by
  cases write with
  | create userID channelType input => trivial
  | update channel input =>
    refine ⟨hkeyed.below channel hread, fun row hrow hid => ?_⟩
    rw [List.inj_on_of_nodup_map hkeyed.ids hrow hread hid]

/-- A call that writes while its count holds finds room. -/
theorem ChannelWrite.hasRoom {write : ChannelWrite} {outdated : Bool}
    (hready : (ChannelCall.writing write).Ready channels outdated)
    (h : write.Undisturbed channels outdated) : write.HasRoom channels := by
  obtain ⟨howned, hroom⟩ := hready
  cases write with
  | create userID channelType input => exact fun henabled => hroom henabled (h henabled)
  | update channel input =>
    intro henables row hrow hid hdisabled
    have hstill := h henables
    split at hstill
    · rw [hstill row hrow hid] at hdisabled
      cases hdisabled
    · rename_i hcounts
      rw [Bool.not_eq_true] at hcounts
      rw [howned.2 row hrow hid]
      exact hroom ⟨henables, hcounts⟩ hstill

section History
variable {h h' : ChannelHistory}

/-- A step of another call or an import leaves a call ready: what adds to the enabled
channels of its user makes its count outdated. -/
theorem ChannelCall.Ready.after {call : ChannelCall} (hcall : h.system.calls i = some call)
    (hready : call.Ready h.system.db.channels (h.outdated i))
    (hrows : Evolves h.system.db.channels t.db.channels) :
    call.Ready t.db.channels (h.outdatedAfter t i) := by
  cases call with
  | selecting userID channelID input => trivial
  | counting write => exact ChannelWrite.Owned.evolves hready hrows
  | writing write =>
    obtain ⟨howned, hroom⟩ := hready
    refine ⟨howned.evolves hrows, fun hcounts houtdated => ?_⟩
    simp only [ChannelHistory.outdatedAfter, hcall, Bool.or_eq_false_iff, decide_eq_false_iff_not,
      not_lt] at houtdated
    exact Nat.lt_of_le_of_lt houtdated.2 (hroom hcounts houtdated.1)
  | done result => trivial

theorem Reaches.ready {call : ChannelCall} (hinv : ChannelHistoryInv h)
    (hcall : Reaches h.system i call) (outdated : Bool) :
    call.Ready h.system.db.channels outdated := by
  cases hcall with
  | selecting userID channelID input => trivial
  | done result => trivial
  | counting hread => exact ChannelWrite.owned_of_read hinv.channels.keyed hread
  | uncounted hread hcounts =>
    exact ⟨ChannelWrite.owned_of_read hinv.channels.keyed hread, fun hcounted => absurd hcounted hcounts⟩
  | counted hcounting hroom => exact ⟨hinv.calls i _ hcounting, fun _ _ => hroom⟩

theorem ChannelHistoryInv.step {e : ChannelEvent Nonce} (hinv : ChannelHistoryInv h)
    (hok : Uncrossed env h e) (hstep : h.step env e = some h') : ChannelHistoryInv h' := by
  obtain ⟨t, ht, rfl⟩ := Option.map_eq_some_iff.1 hstep
  -- What holds of the calls that a step is not of.
  have hothers : Evolves h.system.db.channels t.db.channels → ∀ j call, h.system.calls j = some call →
      call.Ready t.db.channels (h.outdatedAfter t j) :=
        fun hrows j call hcall => (hinv.calls j call hcall).after hcall hrows
  cases ChannelSystem.step_cases ht with
  | moved i hcall =>
    refine ⟨hinv.channels, ?_⟩
    apply Runs.forall_set_of_ne
    · intro j call _ hj
      exact hothers (.refl _) j call hj
    · rintro call ⟨⟩
      exact hcall.ready hinv _
  | wrote i nonce hcall hrun =>
    have hready := hinv.calls i _ hcall
    have hroom := ChannelWrite.hasRoom hready (hok _ hcall)
    refine ⟨hinv.channels.write hroom hrun, ?_⟩
    apply Runs.forall_set_of_ne
    · intro j call _ hj
      exact hothers (ChannelWrite.run_evolves hrun) j call hj
    · rintro call ⟨⟩
      trivial
  | refused userID readings data => exact ⟨hinv.channels, hothers (.refl _)⟩
  | imported userID readings data himport =>
    have hrows := importFromSubdux_channels himport
    refine ⟨?_, hothers ?_⟩
    · dsimp only
      rw [hrows]
      exact hinv.channels.imported hok
    · dsimp only
      rw [hrows]
      exact evolves_loopState _ _

end History

/-- No user has more channels enabled than the limit, in every run in which no other write
comes between a count and its write. -/
theorem enabled_channels_limited (env : ChannelEnv Nonce Value) (db : ImportDB)
    (hids : (db.channels.rows.map (·.id)).Nodup)
    (hbelow : ∀ row ∈ db.channels.rows, row.id < db.channels.nextID)
    (hlimit : ∀ userID, enabledCount db.channels userID ≤ maxEnabledNotificationChannels)
    (h : ChannelHistory)
    (hrun : Path (ChannelHistory.step env) (Uncrossed env) ⟨⟨db, fun _ => none⟩, fun _ => false⟩ h)
    (userID : Nat) :
    enabledCount h.system.db.channels userID ≤ maxEnabledNotificationChannels := by
  have hinv : ChannelHistoryInv h := by
    apply hrun.invariant ChannelHistoryInv
    · exact fun _ e _ hinv hok hstep => hinv.step hok hstep
    · exact ⟨⟨⟨hids, hbelow⟩, hlimit⟩, fun i call hcall => nomatch hcall⟩
  exact hinv.channels.limit userID

end Invariant

/-! ## A file with four enabled channels -/

/-- JSON texts that are canonical already, and a cipher that only marks what it is given. -/
def plainEnv : ChannelEnv Unit String where
  parseURL _ := none
  sealer := some fun _ value => value
  opener payload := some payload
  unmarshal := some
  marshal := some
  isRedactedNotificationChannelConfig _ _ := false
  validateChannelConfig _ _ := .ok ()
  validateTemplate _ := .ok ()
  unmarshalMap := some
  mergeNotificationConfigWithExistingSecrets _ _ incoming _ _ := .ok incoming

def plainReadings : ImportReadings Unit := ⟨fun _ => (), fun _ => midnight 0, fun _ => midnight 0⟩

def noChannels : ImportDB := ⟨⟨[], 1⟩, ⟨[], 1⟩, ⟨[], 1⟩, ⟨[], 1⟩, ⟨[], 1⟩, ⟨[], 1⟩, [], []⟩

def pushConfig (key : String) : String := "\x7b\"push_key\":\"" ++ key ++ "\"\x7d"

/-- A file with nothing but enabled `pushdeer` channels. -/
def channelFile (keys : List String) : SubduxImportData where
  secretsIncluded := some true
  currencies := some []
  categories := some []
  paymentMethods := some []
  subscriptions := some []
  preference := none
  channels := keys.map fun key => ⟨1, "pushdeer", true, pushConfig key⟩
  templates := []
  policy := none

theorem import_exceeds_channel_limit :
    ¬ ∀ s, Path (ChannelSystem.step plainEnv) Runs.Always ⟨noChannels, fun _ => none⟩ s →
      ∀ userID, enabledCount s.db.channels userID ≤ maxEnabledNotificationChannels := by
  intro hall
  have hrun : (exec (ChannelSystem.step plainEnv) Runs.Always ⟨noChannels, fun _ => none⟩
      [.importSubdux 1 plainReadings (channelFile ["a", "b", "c", "d"])]).any
        (fun s => enabledCount s.db.channels 1 = 4) = true := by
    decide +kernel
  obtain ⟨s, hs, hfour⟩ := (Option.any_eq_true _ _).1 hrun
  have hle := hall s (Path.of_exec hs) 1
  rw [of_decide_eq_true hfour] at hle
  exact absurd hle (by decide)

/-- A channel is created while another user enables one, a file brings in a second one, and
one is enabled again while it is disabled. -/
def uncrossedEvents : List (ChannelEvent Unit) :=
  [.createChannel 0 1 ⟨" PushDeer ", true, pushConfig "a"⟩,
   .createChannel 1 2 ⟨"pushdeer", true, pushConfig "a"⟩, .count 0 false, .count 1 false,
   .write 1 () false, .write 0 () false,
   .importSubdux 1 plainReadings (channelFile ["a", "b"]),
   .updateChannel 2 1 2 ⟨some false, none, [], []⟩, .updateChannel 3 1 2
     ⟨some true, some (pushConfig "c"), [], []⟩,
   .select 2 false, .write 2 () false, .select 3 false, .count 3 false, .write 3 () false]

theorem enabled_channels_limited_sample :
    ∃ h : ChannelHistory, enabledCount h.system.db.channels 1 = 2 ∧
    enabledCount h.system.db.channels 2 = 1 ∧
      ∀ userID, enabledCount h.system.db.channels userID ≤ maxEnabledNotificationChannels := by
  have hrun : (exec (ChannelHistory.step plainEnv) (Uncrossed plainEnv)
      ⟨⟨noChannels, fun _ => none⟩, fun _ => false⟩
      uncrossedEvents).any
        (fun h => enabledCount h.system.db.channels 1 = 2 ∧
          enabledCount h.system.db.channels 2 = 1) = true := by
    decide +kernel
  obtain ⟨h, hh, hcounts⟩ := (Option.any_eq_true _ _).1 hrun
  obtain ⟨hone, htwo⟩ := of_decide_eq_true hcounts
  exact ⟨h, hone, htwo, enabled_channels_limited plainEnv noChannels List.nodup_nil
    (fun row hrow => absurd hrow List.not_mem_nil) (fun _ => Nat.zero_le _) h (Path.of_exec hh)⟩

end Subdux.ImportService
