import Subdux.ChannelSecrets
/-!
# Merging an edited config

`mergeNotificationConfigWithExistingSecrets`, key by key. `valueAt_mergeSecrets` and
`valueAt_mergeWebhookHeaders` say what each key of the merged config has, from which both
halves follow: the unmodified response merges back into the stored config, and an edit
clears and keeps what it says (`merge_keeps_secrets_iff`), except where the headers are left
out or a secret is `null`.
-/

namespace Subdux.Channels
open GoStrings JsonText Results

/-! ## Canonical configs -/

section Canonical
variable {env : ConfigEnv} {fs gs : List (String × Json)} {k : String} {v : Json}

/-- A value that decoding and encoding leave as it is. -/
structure Canonical (env : ConfigEnv) (v : Json) : Prop where
  decoded : decodeAny env.float v = some v
  sorted : byKey v = v

theorem lastOfEach_of_nodup (h : (fs.map (·.1)).Nodup) : lastOfEach fs = fs := by
  induction fs with
  | nil => rfl
  | cons f fs ih =>
    rw [List.map_cons, List.nodup_cons] at h
    rw [lastOfEach, if_neg h.1, ih h.2]

theorem decodeFields_self_iff :
    decodeFields env.float fs = some fs ↔ ∀ f ∈ fs, decodeAny env.float f.2 = some f.2 := by
  induction fs with
  | nil => simp [decodeFields]
  | cons f fs ih =>
    rw [decodeFields_cons]
    simp only [Option.bind_eq_some_iff, Option.map_eq_some_iff, List.cons.injEq,
      List.forall_mem_cons, ← ih]
    constructor
    · rintro ⟨w, hw, gs, hgs, hf, rfl⟩
      exact ⟨hw.trans (by rw [← hf]), hgs⟩
    · rintro ⟨hf, hfs⟩
      exact ⟨f.2, hf, fs, hfs, rfl, rfl⟩

/-- An object is canonical when its keys ascend and its values are canonical. -/
theorem canonical_obj_iff :
    Canonical env (.obj fs) ↔ (fs.map (·.1)).Nodup ∧ fs.Pairwise KeyLE ∧ ∀ f ∈ fs,
    Canonical env f.2 := by
  constructor
  · intro h
    obtain ⟨gs, hgs, heq⟩ := Option.map_eq_some_iff.1 h.decoded
    have hlast : lastOfEach gs = fs := Json.obj.inj heq
    have hnodup : (fs.map (·.1)).Nodup := hlast ▸ nodup_keys_lastOfEach gs
    have hgsNodup : (gs.map (·.1)).Nodup := by
      rw [keys_decodeFields hgs]
      exact hnodup
    have hsame : gs = fs := (lastOfEach_of_nodup hgsNodup).symm.trans hlast
    rw [hsame] at hgs
    have hsorted : (byKeyFields fs).insertionSort KeyLE = fs := by
      have hsorted := h.sorted
      rw [byKey] at hsorted
      exact Json.obj.inj hsorted
    have hpairwise : fs.Pairwise KeyLE := hsorted ▸ List.pairwise_insertionSort KeyLE _
    have hvalues : byKeyFields fs = fs := by
      have hmapped : (byKeyFields fs).Pairwise KeyLE := by
        rw [byKeyFields_eq_map, List.pairwise_map]
        exact hpairwise
      rw [← hmapped.insertionSort_eq]
      exact hsorted
    refine ⟨hnodup, hpairwise, fun f hf => ⟨decodeFields_self_iff.1 hgs f hf, ?_⟩⟩
    rw [byKeyFields_eq_map] at hvalues
    have hmap : fs.map (fun f => (f.1, byKey f.2)) = fs.map id := by rw [hvalues, List.map_id]
    exact congrArg Prod.snd (List.map_inj_left.1 hmap f hf)
  · rintro ⟨hnodup, hpairwise, hvalues⟩
    constructor
    · rw [decodeAny, decodeFields_self_iff.2 fun f hf => (hvalues f hf).decoded, Option.map_some,
        lastOfEach_of_nodup hnodup]
    · have hself : byKeyFields fs = fs := by
        rw [byKeyFields_eq_map]
        refine (List.map_congr_left fun f hf => ?_).trans (List.map_id fs)
        rw [(hvalues f hf).sorted]
        rfl
      rw [byKey, hself, hpairwise.insertionSort_eq]

/-- Other values under the same keys. -/
theorem Canonical.map {g : String × Json → Json} (h : Canonical env (.obj fs))
    (hg : ∀ f ∈ fs, Canonical env (g f)) :
    Canonical env (.obj (fs.map fun f => (f.1, g f))) := by
  obtain ⟨hnodup, hpairwise, -⟩ := canonical_obj_iff.1 h
  refine canonical_obj_iff.2 ⟨?_, ?_, ?_⟩
  · simpa [Function.comp_def] using hnodup
  · rw [List.pairwise_map]
    exact hpairwise
  · intro f hf
    obtain ⟨f, hmem, rfl⟩ := List.mem_map.1 hf
    exact hg f hmem

theorem IsText.canonical (h : IsText v) : Canonical env v := ⟨h.decodeAny, h.byKey⟩

theorem Canonical.mask (h : Canonical env v) : Canonical env (mask v) := by
  unfold Channels.mask
  split
  · exact IsText.canonical (.inr ⟨"", rfl⟩)
  · exact h

theorem Canonical.maskEntries (h : Canonical env v) : Canonical env (maskEntries v) := by
  cases v with
  | obj headers => exact h.map fun f hf => ((canonical_obj_iff.1 h).2.2 f hf).mask
  | null => exact h
  | bool b => exact h
  | num n => exact h
  | str s => exact h
  | arr vs => exact h

/-- What an encoded map has at a key. -/
theorem valueAt_byKey (hkeys : (fs.map (·.1)).Nodup) (h : byKey (.obj fs) = .obj gs) :
    valueAt k gs = (valueAt k fs).map byKey := by
  rw [byKey, byKeyFields_eq_map] at h
  obtain rfl := Json.obj.inj h
  have hperm := List.perm_insertionSort KeyLE (fs.map fun f => (f.1, byKey f.2))
  have hmapped : ((fs.map fun f => (f.1, byKey f.2)).map (·.1)).Nodup := by
    simpa [Function.comp_def] using hkeys
  have hsorted := (hperm.map Prod.fst).nodup_iff.2 hmapped
  refine Option.ext fun v => ?_
  rw [valueAt_eq_some_iff hsorted, hperm.mem_iff, Option.map_eq_some_iff]
  simp only [valueAt_eq_some_iff hkeys, List.mem_map, Prod.mk.injEq]
  constructor
  · rintro ⟨f, hf, rfl, rfl⟩
    exact ⟨f.2, hf, rfl⟩
  · rintro ⟨w, hw, rfl⟩
    exact ⟨(k, w), hw, rfl, rfl⟩

end Canonical

/-! ## Key by key -/

section KeyByKey
variable {existing incoming m : List (String × Json)} {cleared : List String} {k : String}
  {v : Option Json}

/-- What the merge makes of one secret field. -/
def mergedValue (existing : Option Json) (cleared : Bool) (incoming : Option Json) : Option Json :=
  if cleared then some (.str "")
  else
    match incoming with
    | none => existing
    | some (.str incomingValue) =>
      if trimSpace incomingValue ≠ "" then incoming
      else
        match existing with
        | some (.str existingValue) => if trimSpace existingValue ≠ "" then existing else incoming
        | _ => incoming
    | some _ => incoming

theorem valueAt_mergeSecret (field : String) : valueAt k (mergeSecret existing cleared incoming field) =
    if k = field then mergedValue (valueAt k existing) (field ∈ cleared) (valueAt k incoming)
    else valueAt k incoming := by
  unfold mergeSecret mergedValue
  by_cases hkey : k = field
  · subst hkey
    by_cases hcleared : k ∈ cleared
    · simp [hcleared]
    · simp only [if_neg hcleared, if_true, decide_eq_true_eq]
      cases hin : valueAt k incoming with
      | none => cases hex : valueAt k existing <;> simp [hin]
      | some v =>
        cases v with
        | str s =>
          dsimp only
          split
          · exact hin
          · cases hex : valueAt k existing with
            | none => exact hin
            | some w =>
              cases w with
              | str t =>
                dsimp only
                split
                · simp
                · exact hin
              | null => exact hin
              | bool b => exact hin
              | num n => exact hin
              | arr vs => exact hin
              | obj fs => exact hin
        | null => exact hin
        | bool b => exact hin
        | num n => exact hin
        | arr vs => exact hin
        | obj fs => exact hin
  · rw [if_neg hkey]
    split
    · rw [valueAt_setAt, if_neg hkey]
    · split
      · split
        · rw [valueAt_setAt, if_neg hkey]
        · rfl
      · split
        · rfl
        · split
          · split
            · rw [valueAt_setAt, if_neg hkey]
            · rfl
          · rfl
      · rfl

/-- The fields are merged apart from each other. -/
theorem valueAt_mergeSecrets {secretFields : List String} (hnodup : secretFields.Nodup) :
    valueAt k (secretFields.foldl (mergeSecret existing cleared) incoming) =
      if k ∈ secretFields then mergedValue (valueAt k existing) (k ∈ cleared) (valueAt k incoming)
        else valueAt k incoming := by
  induction secretFields generalizing incoming with
  | nil => rfl
  | cons field secretFields ih =>
    rw [List.nodup_cons] at hnodup
    rw [List.foldl_cons, ih hnodup.2, valueAt_mergeSecret]
    by_cases hkey : k = field
    · subst hkey
      simp [hnodup.1]
    · simp [hkey]

theorem nodup_mergeSecret (h : (incoming.map (·.1)).Nodup) (field : String) :
    ((mergeSecret existing cleared incoming field).map (·.1)).Nodup := by
  unfold mergeSecret
  split
  · exact nodup_keys_setAt h
  · split
    · split
      · exact nodup_keys_setAt h
      · exact h
    · split
      · exact h
      · split
        · split
          · exact nodup_keys_setAt h
          · exact h
        · exact h
    · exact h

theorem nodup_mergeSecrets (h : (incoming.map (·.1)).Nodup) (secretFields : List String) :
    ((secretFields.foldl (mergeSecret existing cleared) incoming).map (·.1)).Nodup := by
  induction secretFields generalizing incoming with
  | nil => exact h
  | cons field secretFields ih => exact ih (nodup_mergeSecret h field)

/-- What the merge makes of the headers. -/
def mergedHeaders (existing incoming : Option Json) (cleared : List String) : Option Json :=
  match existing with
  | some (.obj existingHeaders) =>
    match incoming with
    | none => some (.obj existingHeaders)
    | some (.obj incomingHeaders) =>
      some (.obj (incomingHeaders.map (mergeHeader existingHeaders cleared)))
    | some _ => incoming
  | _ => incoming

theorem valueAt_mergeWebhookHeaders :
    valueAt k (mergeWebhookHeadersWithExisting existing incoming cleared) =
    if k = "headers" then mergedHeaders (valueAt "headers" existing)
    (valueAt "headers" incoming) cleared else valueAt k incoming := by
  unfold mergeWebhookHeadersWithExisting mergedHeaders
  by_cases hkey : k = "headers"
  · subst hkey
    rw [if_pos rfl]
    cases valueAt "headers" existing with
    | none => rfl
    | some v =>
      cases v with
      | obj existingHeaders =>
        cases hin : valueAt "headers" incoming with
        | none => simp
        | some w =>
          cases w with
          | obj headers =>
            cases headers with
            | nil => exact hin
            | cons f headers => simp
          | null => exact hin
          | bool b => exact hin
          | num n => exact hin
          | str s => exact hin
          | arr vs => exact hin
      | null => rfl
      | bool b => rfl
      | num n => rfl
      | str s => rfl
      | arr vs => rfl
  · rw [if_neg hkey]
    split
    · split
      · rw [valueAt_setAt, if_neg hkey]
      · split
        · rfl
        · rw [valueAt_setAt, if_neg hkey]
      · rfl
    · rfl

theorem mergeHeader_key (existingHeaders : List (String × Json)) (f : String × Json) :
    (mergeHeader existingHeaders cleared f).1 = f.1 := by
  unfold mergeHeader
  split
  · rfl
  · split
    · split
      · rfl
      · split
        · split <;> rfl
        · rfl
    · rfl

theorem nodup_mergeWebhookHeaders (h : (incoming.map (·.1)).Nodup) :
    ((mergeWebhookHeadersWithExisting existing incoming cleared).map (·.1)).Nodup := by
  unfold mergeWebhookHeadersWithExisting
  split
  · split
    · exact nodup_keys_setAt h
    · split
      · exact h
      · exact nodup_keys_setAt h
    · exact h
  · exact h

end KeyByKey

/-! ## What an edit does -/

/-- A value that is absent or blank. -/
def blank : Option Json → Bool
  | none => true
  | some .null => true
  | some (.str s) => trimSpace s = ""
  | some _ => false

/-- The value of a header. -/
def headerAt (name : String) (config : List (String × Json)) : Option Json :=
  match valueAt "headers" config with
  | some (.obj headers) => valueAt name headers
  | _ => none

def headerNames (config : List (String × Json)) : List String :=
  match valueAt "headers" config with
  | some (.obj headers) => headers.map (·.1)
  | _ => []

/-- The merged value is the stored one; a blank may take the place of a blank. -/
def Keeps (stored merged : Option Json) : Prop :=
  merged = stored ∨ (blank stored = true ∧ blank merged = true)

/-- Cleared names are blank, and the secret fields that are neither cleared nor supplied keep what
is stored. -/
structure EditKept (secretFields : List String) (stored incoming merged : List (String × Json))
    (clearedFields clearedHeaderKeys : List String) : Prop where
  fields : ∀ name ∈ clearedFields, blank (valueAt name merged) = true
  headers : ∀ name ∈ clearedHeaderKeys, blank (headerAt name merged) = true
  kept : ∀ name ∈ secretFields, name ∉ clearedFields → blank (valueAt name incoming) = true →
    Keeps (valueAt name stored) (valueAt name merged)

/-- The headers are given where one of them is cleared, and no secret to keep is `null`. -/
structure EditSpelled (secretFields : List String) (stored incoming : List (String × Json))
    (clearedFields clearedHeaderKeys : List String) : Prop where
  headers : valueAt "headers" incoming = none → ∀ name ∈ clearedHeaderKeys,
    blank (headerAt name stored) = true
  nulls : ∀ name ∈ secretFields, name ∉ clearedFields → valueAt name incoming = some .null →
    blank (valueAt name stored) = true

/-- A stored config: it was accepted, and is what `json.Marshal` wrote. -/
structure StoredConfig (env : ConfigEnv) (channelType : String) (fs : List (String × Json)) : Prop where
  accepted : validateChannelConfig env channelType (some (.obj fs)) = .ok ()
  canonical : Canonical env (.obj fs)

section Edit
variable {env : ConfigEnv} {channelType name : String} {fs gs parsed : List (String × Json)}
  {fields : List (String × FieldKind)}
  {secretFields clearedFields clearedHeaderKeys : List String} {stored incoming : Option Json}

theorem blank_empty : blank (some (.str "")) = true := by decide +kernel

theorem blank_map_byKey (v : Option Json) : blank (v.map byKey) = blank v := by
  cases v with
  | none => rfl
  | some v => cases v <;> rfl

theorem mem_of_valueAt {k : String} {v : Json} (h : valueAt k fs = some v) : (k, v) ∈ fs := by
  obtain ⟨f, hf, rfl⟩ := Option.map_eq_some_iff.1 h
  have hkey : f.1 = k := by simpa using List.find?_some hf
  rw [← hkey]
  exact List.mem_of_find?_eq_some hf

/-- A secret that is stored is a string or `null`. -/
theorem StoredConfig.isText (h : StoredConfig env channelType fs)
    (hfields : channelConfigFields channelType = some fields)
    (hsecret : name ∈ getNotificationChannelSecretFields channelType) {v : Json}
    (hv : valueAt name fs = some v) : IsText v := by
  obtain ⟨fields', _, hfields', -, hstrict⟩ := validateChannelConfig_ok h.accepted
  rw [hfields] at hfields'
  cases hfields'
  have facts := typeFacts hfields
  obtain ⟨hfield, hmatch, -⟩ := facts.secrets name hsecret
  exact accepts_string (decode_accepts hstrict facts.names hfield (mem_of_valueAt hv) hmatch)

/-- Only a webhook has headers. -/
theorem StoredConfig.webhook (h : StoredConfig env channelType fs) {v : Json}
    (hv : valueAt "headers" fs = some v) :
    channelType = "webhook" := by
  obtain ⟨fields, _, hfields, -, hstrict⟩ := validateChannelConfig_ok h.accepted
  by_contra hne
  obtain ⟨field, hmem, hboth⟩ := List.any_eq_true.1 (List.all_eq_true.1 hstrict _ (mem_of_valueAt hv))
  rw [(typeFacts hfields).no_headers hne field hmem] at hboth
  cases hboth

/-- A field that is not supplied keeps what is stored, unless `null` hides a stored secret. -/
theorem keeps_iff (hstored : ∀ v, stored = some v → IsText v) (hincoming : blank incoming = true) :
    Keeps stored ((mergedValue stored false incoming).map byKey) ↔
    (incoming = some .null → blank stored = true) := by
  have hbyKey : stored.map byKey = stored := by
    cases stored with
    | none => rfl
    | some v => rw [Option.map_some, (hstored v rfl).byKey]
  unfold mergedValue
  rw [if_neg Bool.false_ne_true]
  cases incoming with
  | none =>
    dsimp only
    rw [hbyKey]
    exact ⟨fun _ h => (nomatch h), fun _ => .inl rfl⟩
  | some v =>
    cases v with
    | null =>
      constructor
      · rintro (h | h) -
        · rw [← h]
          rfl
        · exact h.1
      · exact fun h => .inr ⟨h rfl, rfl⟩
    | str s =>
      have hblank : trimSpace s = "" := of_decide_eq_true hincoming
      refine ⟨fun _ h => (nomatch h), fun _ => ?_⟩
      dsimp only
      rw [if_neg (not_not.2 hblank)]
      cases stored with
      | none => exact .inr ⟨rfl, hincoming⟩
      | some w =>
        obtain rfl | ⟨t, rfl⟩ := hstored w rfl
        · exact .inr ⟨rfl, hincoming⟩
        · dsimp only
          split
          · exact .inl rfl
          · rename_i hset
            exact .inr ⟨decide_eq_true (not_not.1 hset), hincoming⟩
    | bool b => cases hincoming
    | num n => cases hincoming
    | arr vs => cases hincoming
    | obj fs => cases hincoming

/-- A header that is cleared is blank, if the headers are given. -/
theorem cleared_header_iff (hcleared : name ∈ clearedHeaderKeys) {headers : List (String × Json)}
    (hstored : stored = some (.obj headers)) (hcanonical : Canonical env (.obj headers))
    {merged : List (String × Json)}
    (hmerged : valueAt "headers" merged = (mergedHeaders stored incoming clearedHeaderKeys).map byKey) :
    blank (headerAt name merged) = true ↔ (incoming = none → blank (valueAt name headers) = true) := by
  subst hstored
  unfold mergedHeaders at hmerged
  unfold headerAt
  rw [hmerged]
  cases incoming with
  | none =>
    dsimp only [Option.map_some]
    rw [hcanonical.sorted]
    exact ⟨fun h _ => h, fun h => h rfl⟩
  | some v =>
    refine ⟨fun _ h => (nomatch h), fun _ => ?_⟩
    cases v with
    | obj incomingHeaders =>
      dsimp only [Option.map_some]
      rw [byKey, byKeyFields_eq_map]
      dsimp only
      cases hvalue : valueAt name _ with
      | none => rfl
      | some w =>
        -- every entry of the name was blanked
        obtain ⟨f, hf, hentry⟩ :=
          List.mem_map.1 ((List.mem_insertionSort KeyLE).1 (mem_of_valueAt hvalue))
        obtain ⟨g, -, rfl⟩ := List.mem_map.1 hf
        have hname : (mergeHeader headers clearedHeaderKeys g).1 = name := congrArg Prod.fst hentry
        rw [mergeHeader_key] at hname
        have hvalue : byKey (mergeHeader headers clearedHeaderKeys g).2 = w := congrArg Prod.snd hentry
        rw [mergeHeader, if_pos (hname ▸ hcleared)] at hvalue
        rw [← hvalue]
        exact blank_empty
    | null => rfl
    | bool b => rfl
    | num n => rfl
    | str s => rfl
    | arr vs => rfl

/-! ### The unmodified response -/

theorem valueAt_map (g : String × Json → Json) (k : String) (fs : List (String × Json)) :
    valueAt k (fs.map fun f => (f.1, g f)) = (valueAt k fs).map fun v => g (k, v) := by
  induction fs with
  | nil => rfl
  | cons f fs ih =>
    rw [List.map_cons, valueAt_cons, valueAt_cons, ih]
    split
    · rename_i hkey
      rw [← hkey]
      rfl
    · rfl

theorem Canonical.unmarshalMap (h : Canonical env (.obj fs)) :
    unmarshalMap env (some (.obj fs)) = some fs := by
  have hfields := (canonical_obj_iff.1 h).2.2
  rw [Channels.unmarshalMap, decodeFields_self_iff.2 fun f hf => (hfields f hf).decoded, Option.map_some,
    lastOfEach_of_nodup (canonical_obj_iff.1 h).1]

/-- The response of a canonical config masks the values in place. -/
theorem Canonical.sanitize (h : Canonical env (.obj fs)) (channelType : String) :
    (sanitizeNotificationConfig env channelType (some (.obj fs))).1 =
      .obj (fs.map (maskMember (getNotificationChannelSecretFields channelType)
        (isWebhook channelType))) ∧
    Canonical env (.obj
      (fs.map (maskMember (getNotificationChannelSecretFields channelType)
      (isWebhook channelType)))) := by
  generalize hsecret : getNotificationChannelSecretFields channelType = secretFields
  generalize hwebhook : isWebhook channelType = webhook
  have hcanonical : Canonical env (.obj (fs.map (maskMember secretFields webhook))) := by
    have hmap : fs.map (maskMember secretFields webhook) = fs.map fun f =>
        (f.1, (maskMember secretFields webhook f).2) :=
      List.map_congr_left fun f _ => Prod.ext (maskMember_key f) rfl
    rw [hmap]
    refine h.map fun f hf => ?_
    have hvalue := (canonical_obj_iff.1 h).2.2 f hf
    unfold maskMember
    dsimp only
    split <;> split
    · exact hvalue.mask.maskEntries
    · exact hvalue.maskEntries
    · exact hvalue.mask
    · exact hvalue
  rw [sanitize_parsed h.unmarshalMap, hsecret, hwebhook]
  exact ⟨hcanonical.sorted, hcanonical⟩

/-- A masked field gets its value back. -/
theorem mergedValue_mask (stored : Option Json) :
    mergedValue stored false (stored.map mask) = stored := by
  unfold mergedValue
  rw [if_neg Bool.false_ne_true]
  cases stored with
  | none => rfl
  | some v =>
    cases v with
    | str s =>
      by_cases hs : trimSpace s = ""
      · have hmask : mask (.str s) = .str s := if_neg (by simp [isSet, hs])
        simp [hmask, hs]
      · have hmask : mask (.str s) = .str "" := if_pos (by simp [isSet, hs])
        have hempty : trimSpace "" = "" := by decide +kernel
        simp [hmask, hs, hempty]
    | null => rfl
    | bool b => rfl
    | num n => rfl
    | arr vs => rfl
    | obj fs => rfl

/-- Masked headers get their values back. -/
theorem mergedHeaders_mask (hcanonical : ∀ v, stored = some v → Canonical env v) :
    mergedHeaders stored (stored.map maskEntries) [] = stored := by
  unfold mergedHeaders
  cases stored with
  | none => rfl
  | some v =>
    cases v with
    | obj headers =>
      have hnodup := (canonical_obj_iff.1 (hcanonical _ rfl)).1
      simp only [Option.map_some, Channels.maskEntries, List.map_map, Option.some.injEq, Json.obj.injEq]
      refine (List.map_congr_left fun f hf => ?_).trans (List.map_id headers)
      have hvalue : valueAt f.1 headers = some f.2 := (valueAt_eq_some_iff hnodup).2 hf
      obtain ⟨key, value⟩ := f
      simp only [Function.comp_apply, mergeHeader, List.not_mem_nil, if_false, id_eq]
      cases value with
      | str s =>
        by_cases hs : trimSpace s = ""
        · have hmask : Channels.mask (.str s) = .str s := if_neg (by simp [isSet, hs])
          simp [hmask, hs, hvalue]
        · have hmask : Channels.mask (.str s) = .str "" := if_pos (by simp [isSet, hs])
          have hempty : trimSpace "" = "" := by decide +kernel
          simp [hmask, hs, hvalue, hempty]
      | null => rfl
      | bool b => rfl
      | num n => rfl
      | arr vs => rfl
      | obj fs => rfl
    | null => rfl
    | bool b => rfl
    | num n => rfl
    | str s => rfl
    | arr vs => rfl

/-! ### The merged config -/

theorem headers_not_secret (facts : TypeFacts channelType fields) :
    "headers" ∉ getNotificationChannelSecretFields channelType :=
  fun hmem => (facts.secrets _ hmem).2.2 rfl

/-- The members before they are sorted. -/
def mergedMembers (channelType : String) (existing incoming : List (String × Json))
    (clearedFields clearedHeaderKeys : List String) :
    List (String × Json) :=
  let merged :=
    (getNotificationChannelSecretFields channelType).foldl (mergeSecret existing clearedFields) incoming
  if isWebhook channelType then mergeWebhookHeadersWithExisting existing merged clearedHeaderKeys
    else merged

/-- A key is a secret field, the headers of a webhook, or what comes in. -/
theorem valueAt_mergedMembers (facts : TypeFacts channelType fields) (k : String) :
    valueAt k (mergedMembers channelType fs parsed clearedFields clearedHeaderKeys) =
      if k ∈ getNotificationChannelSecretFields channelType then
        mergedValue (valueAt k fs) (k ∈ clearedFields) (valueAt k parsed)
      else if isWebhook channelType = true ∧ k = "headers" then
        mergedHeaders (valueAt "headers" fs) (valueAt "headers" parsed) clearedHeaderKeys
      else valueAt k parsed := by
  have hheaders := headers_not_secret facts
  unfold mergedMembers
  dsimp only
  by_cases hwebhook : isWebhook channelType = true
  · rw [if_pos hwebhook, valueAt_mergeWebhookHeaders]
    by_cases hkey : k = "headers"
    · subst hkey
      rw [if_pos rfl, if_neg hheaders, if_pos ⟨hwebhook, rfl⟩, valueAt_mergeSecrets facts.distinct,
        if_neg hheaders]
    · rw [if_neg hkey, valueAt_mergeSecrets facts.distinct,
        if_neg (fun h : _ ∧ k = "headers" => hkey h.2)]
  · rw [if_neg hwebhook, valueAt_mergeSecrets facts.distinct,
      if_neg (fun h : _ ∧ k = "headers" => hwebhook h.1)]

theorem nodup_mergedMembers (h : (parsed.map (·.1)).Nodup) :
    ((mergedMembers channelType fs parsed clearedFields clearedHeaderKeys).map (·.1)).Nodup := by
  unfold mergedMembers
  dsimp only
  split
  · exact nodup_mergeWebhookHeaders (nodup_mergeSecrets h _)
  · exact nodup_mergeSecrets h _

theorem merge_parsed (facts : TypeFacts channelType fields) {existingConfig incomingConfig : Option Json}
    (hexisting : unmarshalMap env existingConfig = some fs)
    (hincoming : unmarshalMap env incomingConfig = some parsed) :
    mergeNotificationConfigWithExistingSecrets env channelType existingConfig incomingConfig
    clearedFields clearedHeaderKeys =
      some (byKey (.obj (mergedMembers channelType fs parsed clearedFields clearedHeaderKeys))) := by
  unfold mergeNotificationConfigWithExistingSecrets parseNotificationConfigMap
  rw [hincoming, hexisting]
  dsimp only
  rw [if_neg (by simpa using facts.some_secret)]
  rfl

/-- The unmodified response merges back into the stored config. -/
theorem StoredConfig.merge_response (h : StoredConfig env channelType fs) :
    mergeNotificationConfigWithExistingSecrets env channelType (some (.obj fs))
      (some (sanitizeNotificationConfig env channelType (some (.obj fs))).1) [] [] = some (.obj fs) := by
  obtain ⟨fields, _, hfields, -, -⟩ := validateChannelConfig_ok h.accepted
  have facts := typeFacts hfields
  obtain ⟨hresponse, hmasked⟩ := h.canonical.sanitize channelType
  have hkeys := (canonical_obj_iff.1 h.canonical).1
  rw [hresponse, merge_parsed facts h.canonical.unmarshalMap hmasked.unmarshalMap]
  have hmap : fs.map
      (maskMember (getNotificationChannelSecretFields channelType) (isWebhook channelType)) =
      fs.map fun f => (f.1,
        (maskMember (getNotificationChannelSecretFields channelType) (isWebhook channelType) f).2) :=
    List.map_congr_left fun f _ => Prod.ext (maskMember_key f) rfl
  have hperm : (mergedMembers channelType fs
      (fs.map (maskMember (getNotificationChannelSecretFields channelType) (isWebhook channelType)))
        [] []).Perm fs := by
    refine perm_of_valueAt (nodup_mergedMembers (canonical_obj_iff.1 hmasked).1) hkeys fun k => ?_
    have hheaders := headers_not_secret facts
    rw [valueAt_mergedMembers facts, hmap, valueAt_map, valueAt_map]
    by_cases hsecret : k ∈ getNotificationChannelSecretFields channelType
    · have hne : k ≠ "headers" := (facts.secrets k hsecret).2.2
      rw [if_pos hsecret]
      have hmask : (fun v =>
          (maskMember (getNotificationChannelSecretFields channelType) (isWebhook channelType)
            (k, v)).2) = mask := by
        funext v
        simp [maskMember, hsecret, hne]
      rw [hmask]
      exact mergedValue_mask _
    · rw [if_neg hsecret]
      by_cases hwebhook : isWebhook channelType = true ∧ k = "headers"
      · obtain ⟨hwebhook, rfl⟩ := hwebhook
        rw [if_pos ⟨hwebhook, rfl⟩]
        have hmask : (fun v =>
            (maskMember (getNotificationChannelSecretFields channelType) (isWebhook channelType)
            ("headers", v)).2) = maskEntries := by
          funext v
          simp [maskMember, hheaders, hwebhook]
        rw [hmask]
        exact mergedHeaders_mask fun v hv => (canonical_obj_iff.1 h.canonical).2.2 _ (mem_of_valueAt hv)
      · rw [if_neg hwebhook]
        have hmask : (fun v =>
            (maskMember (getNotificationChannelSecretFields channelType) (isWebhook channelType)
              (k, v)).2) = id := by
          funext v
          simp [maskMember, hsecret, hwebhook]
        rw [hmask, Option.map_id]
        rfl
  rw [byKey_obj_perm (nodup_mergedMembers (canonical_obj_iff.1 hmasked).1) hperm, h.canonical.sorted]

/-! ### An edit -/

/-- Merging the response back gives the stored config, for every type. An edit clears and keeps
what it says exactly when it gives the headers of which it clears one, and no `null` for a
secret that is stored. -/
theorem merge_keeps_secrets_iff (env : ConfigEnv) (channelType : String) (fs : List (String × Json))
    (h : StoredConfig env channelType fs) :
    mergeNotificationConfigWithExistingSecrets env channelType (some (.obj fs))
      (some (sanitizeNotificationConfig env channelType (some (.obj fs))).1) [] [] = some (.obj fs) ∧
    ∀ (clearedFields clearedHeaderKeys : List String) (incoming : Option Json)
    (parsed : List (String × Json)),
      clearedFields ⊆ getNotificationChannelSecretFields channelType →
        clearedHeaderKeys ⊆ headerNames fs →
      unmarshalMap env incoming = some parsed →
      ∃ merged, mergeNotificationConfigWithExistingSecrets env channelType
        (some (.obj fs)) incoming clearedFields clearedHeaderKeys =
          some (.obj merged) ∧
        (EditKept (getNotificationChannelSecretFields channelType) fs parsed merged clearedFields
          clearedHeaderKeys ↔
          EditSpelled (getNotificationChannelSecretFields channelType) fs parsed clearedFields
            clearedHeaderKeys) := by
  refine ⟨h.merge_response,
    fun clearedFields clearedHeaderKeys incoming parsed hclearedFields hclearedHeaders hparsed => ?_⟩
  obtain ⟨fields, _, hfields, -, -⟩ := validateChannelConfig_ok h.accepted
  have facts := typeFacts hfields
  have hparsedKeys : (parsed.map (·.1)).Nodup := by
    unfold unmarshalMap at hparsed
    split at hparsed
    · cases hparsed
      exact List.nodup_nil
    · obtain ⟨members, -, rfl⟩ := Option.map_eq_some_iff.1 hparsed
      exact nodup_keys_lastOfEach members
    · cases hparsed
  have hkeys : ((mergedMembers channelType fs parsed clearedFields clearedHeaderKeys).map
      (·.1)).Nodup := nodup_mergedMembers hparsedKeys
  obtain ⟨merged, hmerged⟩ : ∃ merged,
      byKey (.obj (mergedMembers channelType fs parsed clearedFields clearedHeaderKeys)) = .obj merged :=
    ⟨_, byKey.eq_6 _⟩
  refine ⟨merged, (merge_parsed facts h.canonical.unmarshalMap hparsed).trans
    (congrArg some hmerged), ?_⟩
  -- each member of the result, by its name
  have hvalue : ∀ k, valueAt k merged = _ := fun k =>
    (valueAt_byKey hkeys hmerged).trans (congrArg (Option.map byKey) (valueAt_mergedMembers facts k))
  have hheader : ∀ name ∈ clearedHeaderKeys,
      (blank (headerAt name merged) = true ↔
        (valueAt "headers" parsed = none → blank (headerAt name fs) = true)) := by
    intro name hname
    have hstored := hclearedHeaders hname
    unfold headerNames at hstored
    split at hstored
    · rename_i headers hheaders
      have hwebhook := facts.webhook.2 (h.webhook hheaders)
      have hat : headerAt name fs = valueAt name headers := by rw [headerAt, hheaders]
      rw [hat]
      refine cleared_header_iff hname hheaders
        ((canonical_obj_iff.1 h.canonical).2.2 _ (mem_of_valueAt hheaders)) ?_
      rw [hvalue, if_neg (headers_not_secret facts), if_pos ⟨hwebhook, rfl⟩]
    · cases hstored
  have hkept : ∀ name ∈ getNotificationChannelSecretFields channelType, name ∉ clearedFields →
      blank (valueAt name parsed) = true →
      (Keeps (valueAt name fs) (valueAt name merged) ↔
        (valueAt name parsed = some .null → blank (valueAt name fs) = true)) := by
    intro name hsecret hname hblank
    rw [hvalue, if_pos hsecret, decide_eq_false hname]
    exact keeps_iff (fun v hv => h.isText hfields hsecret hv) hblank
  constructor
  · intro hedit
    refine ⟨fun hnone name hname => (hheader name hname).1 (hedit.headers name hname) hnone,
      fun name hsecret hname hnull => ?_⟩
    have hblank : blank (valueAt name parsed) = true := by rw [hnull]; rfl
    exact (hkept name hsecret hname hblank).1 (hedit.kept name hsecret hname hblank) hnull
  · intro hedit
    refine ⟨fun name hname => ?_, fun name hname => (hheader name hname).2 fun hnone =>
      hedit.headers hnone name hname,
      fun name hsecret hname hblank => (hkept name hsecret hname hblank).2
        (hedit.nulls name hsecret hname)⟩
    rw [hvalue, if_pos (hclearedFields hname), decide_eq_true hname, blank_map_byKey]
    exact blank_empty


/-! ### Samples -/

/-- Every address is `https://example.com`. -/
def sampleWebhookEnv : ConfigEnv :=
  ⟨fun _ => some ⟨"https", "example.com", "example.com"⟩, fun _ => false, some, none⟩

def sampleWebhook : List (String × Json) :=
  [("headers", .obj [("X-Token", .str "abc")]), ("secret", .str "s3cret"),
   ("url", .str "https://example.com/hook")]

theorem sampleWebhook_stored : StoredConfig sampleWebhookEnv "webhook" sampleWebhook where
  accepted := accepted_of (by decide +kernel)
  canonical := by
    have htext : ∀ s, Canonical sampleWebhookEnv (.str s) := fun s => IsText.canonical (.inr ⟨s, rfl⟩)
    have hheaders : Canonical sampleWebhookEnv (.obj [("X-Token", .str "abc")]) :=
      canonical_obj_iff.2 ⟨by decide, List.pairwise_singleton _ _, by simp [htext]⟩
    exact canonical_obj_iff.2 ⟨by decide, by decide +kernel, by simp [sampleWebhook, htext, hheaders]⟩

/-- An edit that gives the headers, of which it clears one. -/
def sampleEdit : List (String × Json) :=
  [("headers", .obj [("X-Token", .str "")]), ("url", .str "https://example.com/hook")]

theorem merge_keeps_secrets_webhook :
    mergeNotificationConfigWithExistingSecrets sampleWebhookEnv "webhook" (some (.obj sampleWebhook))
      (some (sanitizeNotificationConfig sampleWebhookEnv "webhook" (some (.obj sampleWebhook))).1)
        [] [] =
        some (.obj sampleWebhook) ∧
    ∃ merged, mergeNotificationConfigWithExistingSecrets sampleWebhookEnv "webhook"
    (some (.obj sampleWebhook)) (some (.obj sampleEdit))
        [] ["X-Token"] = some (.obj merged) ∧
      EditKept (getNotificationChannelSecretFields "webhook") sampleWebhook sampleEdit merged []
        ["X-Token"] := by
  obtain ⟨hresponse, hedit⟩ :=
    merge_keeps_secrets_iff sampleWebhookEnv "webhook" sampleWebhook sampleWebhook_stored
  have hfields : getNotificationChannelSecretFields "webhook" = ["secret"] := by decide +kernel
  obtain ⟨merged, hmerged, hiff⟩ :=
    hedit [] ["X-Token"] (some (.obj sampleEdit)) sampleEdit (List.nil_subset _)
    (by simp [headerNames, sampleWebhook, valueAt]) rfl
  refine ⟨hresponse, merged, hmerged, hiff.2 ⟨fun hnone => ?_, fun name hname _ hnull => ?_⟩⟩
  · simp [sampleEdit, valueAt] at hnone
  · rw [hfields, List.mem_singleton] at hname
    subst hname
    simp [sampleEdit, valueAt] at hnull

/-- A header that is cleared stays when the edit leaves the headers out. -/
theorem merge_keeps_cleared_header :
    ¬ ∀ (env : ConfigEnv) (channelType : String) (fs : List (String × Json)),
    StoredConfig env channelType fs →
      ∀ (clearedFields clearedHeaderKeys : List String) (incoming : Option Json)
        (parsed merged : List (String × Json)),
        clearedFields ⊆ getNotificationChannelSecretFields channelType →
          clearedHeaderKeys ⊆ headerNames fs →
        unmarshalMap env incoming = some parsed →
        (∀ name ∈ getNotificationChannelSecretFields channelType, valueAt name parsed = none) →
          valueAt "headers" parsed = none →
        mergeNotificationConfigWithExistingSecrets env channelType
          (some (.obj fs)) incoming clearedFields clearedHeaderKeys =
          some (.obj merged) →
        EditKept (getNotificationChannelSecretFields channelType) fs parsed merged clearedFields
          clearedHeaderKeys := by
  intro h
  have hnone : ∀ name ∈ getNotificationChannelSecretFields "webhook",
      valueAt name [("url", Json.str "https://example.com/hook")] = none := by
    have hfields : getNotificationChannelSecretFields "webhook" = ["secret"] := by decide +kernel
    rw [hfields]
    simp [valueAt]
  have hkept := h sampleWebhookEnv "webhook" sampleWebhook sampleWebhook_stored [] ["X-Token"]
    (some (.obj [("url", .str "https://example.com/hook")]))
      [("url", .str "https://example.com/hook")] sampleWebhook
    (List.nil_subset _) (by simp [headerNames, sampleWebhook, valueAt]) rfl hnone (by simp [valueAt]) ?_
  · have hblank := hkept.headers "X-Token" List.mem_cons_self
    revert hblank
    decide +kernel
  · have hmembers : mergedMembers "webhook" sampleWebhook [("url", .str "https://example.com/hook")]
        [] ["X-Token"] =
        [("url", .str "https://example.com/hook"), ("secret", .str "s3cret"),
         ("headers", .obj [("X-Token", .str "abc")])] := by
      have hfields : getNotificationChannelSecretFields "webhook" = ["secret"] := by decide +kernel
      have hwebhook : isWebhook "webhook" = true := by decide +kernel
      rw [mergedMembers, hfields, hwebhook]
      rfl
    have hparsed : unmarshalMap sampleWebhookEnv
        (some (.obj [("url", .str "https://example.com/hook")])) =
        some [("url", .str "https://example.com/hook")] := rfl
    rw [merge_parsed (typeFacts rfl) sampleWebhook_stored.canonical.unmarshalMap hparsed, hmembers]
    rw [← sampleWebhook_stored.canonical.sorted]
    exact congrArg some (byKey_obj_perm (by decide) (List.reverse_perm sampleWebhook))

end Edit

end Subdux.Channels
