import Subdux.ImportPreview
/-!
# Importing a file twice

When a second confirmed import of the same file finds everything that the first one has
created. The two runs read their own clocks and random numbers.
-/

namespace Subdux.ImportService
open GoStrings Upserts

/-- What the cipher and the JSON package are documented to do: a sealed text is opened
again, and a value that was read and is written out reads as itself, from a text without
surrounding space. -/
structure ImportEnv.Lawful {Nonce Value : Type} (env : ImportEnv Nonce Value) : Prop where
  opens : ∀ sealed, env.sealer = some sealed → ∀ nonce value,
    env.opener (sealed nonce value) = some value
  rereads : ∀ text value text', env.unmarshal text = some value → env.marshal value = some text' →
    trimSpace text' = text' ∧ env.unmarshal text' = some value

/-! ## The shared loop -/

section Items
variable {ι α χ : Type} {prepare prepare' : ι → Except Refusal (Prepared α χ)}
  {conflict : α → α → Bool} {table : Table α}
  {items : List ι}

/-- A second run of a loop whose rows stand in the way of another insertion. -/
theorem loopState_again
    (hsame : ∀ rows before i, ((itemUpsert prepare' conflict).creates rows before i).isSome =
      ((itemUpsert prepare conflict).creates rows before i).isSome)
    (hsettles : ∀ i r, (itemUpsert prepare conflict).row i = some r →
      (itemUpsert prepare conflict).settles i = true) :
    let first := (loopState true prepare conflict table items).table
    (loopState true prepare' conflict first items).table = first ∧
      (loopState true prepare' conflict first items).result.imported = 0 := by
  intro first
  have hnone : ∀ before i after, items = before ++ i :: after →
      (itemUpsert prepare' conflict).creates first.columns before i = none := by
    intro before i after hitems
    rw [Option.eq_none_iff_forall_ne_some]
    intro r' hr'
    have hsome := hsame first.columns before i
    rw [hr', Option.isSome_some, eq_comm, Option.isSome_iff_exists, loopState_columns] at hsome
    obtain ⟨r, hr⟩ := hsome
    have hsettled : ∀ i r, (itemUpsert prepare conflict).row i = some r →
        (itemUpsert prepare conflict).settles i ≠ false := by
      intro i r hrow h
      rw [hsettles i r hrow] at h
      cases h
    have hagain :=
      (Upsert.creates_run_iff (fun i r _ hrow h => absurd h (hsettled i r hrow)) hitems).1 hr
    exact hsettled i r (Upsert.creates_iff.1 hagain.2).2.1 hagain.1
  -- Every prefix of the second run leaves the table alone.
  have hprefix : ∀ before after, items = before ++ after →
      (loopState true prepare' conflict first before).table = first ∧
        (loopState true prepare' conflict first before).result.imported = 0 := by
    intro before
    induction before using List.reverseRecOn with
    | nil => exact fun _ _ => ⟨rfl, rfl⟩
    | append_singleton before i ih =>
      intro after hitems
      rw [List.append_assoc] at hitems
      obtain ⟨htable, himported⟩ := ih _ hitems
      have hspec : ItemSpec prepare' conflict true
          (loopState true prepare' conflict first before) before i _ := loopState_spec true before i
      have hinserted : inserted prepare' conflict true
          (loopState true prepare' conflict first before).table before i = none := by
        rw [inserted, if_pos rfl, htable]
        exact hnone before i after hitems
      exact ⟨by rw [hspec.table, hinserted, htable]; rfl,
        by rw [hspec.imported, hinserted, himported]; rfl⟩
  exact hprefix items [] (List.append_nil items).symm

theorem itemUpsert_row {i : ι} {columns : α} (h : (itemUpsert prepare conflict).row i = some columns) :
    ∃ item, prepare i = .ok item ∧ item.create = .ok columns := by
  cases hi : prepare i with
  | error refusal => simp [itemUpsert, hi, Except.toOption] at h
  | ok item =>
    rw [(itemUpsert_ok _ hi).2.1] at h
    cases hcreate : item.create with
    | error err => simp [hcreate, Except.toOption] at h
    | ok created =>
      rw [hcreate] at h
      obtain rfl : created = columns := Option.some.inj h
      exact ⟨item, rfl, hcreate⟩

/-- A row that the look-ups of its own item find. -/
theorem settles_of_finds (hfinds : ∀ i item columns, prepare i = .ok item → item.create = .ok columns →
      item.queries.any (· columns) = true)
    (i : ι) (columns : α) (hrow : (itemUpsert prepare conflict).row i = some columns) :
    (itemUpsert prepare conflict).settles i = true := by
  obtain ⟨item, hitem, hcreate⟩ := itemUpsert_row hrow
  apply Upsert.settles_of_hit hrow
  rw [(itemUpsert_ok _ hitem).2.2]
  exact hfinds i item columns hitem hcreate

end Items

/-! ## The kinds that share it -/

section Kinds
variable {Nonce Value : Type} {env : ImportEnv Nonce Value} {userID : Nat} {db db' : ImportDB}

theorem currencies_again {items : List UserCurrency}
    (h : db'.currencies = (importCurrencies userID true db items).table) :
    (importCurrencies userID true db' items).table = db'.currencies ∧
      (importCurrencies userID true db' items).result.imported = 0 := by
  rw [importCurrencies, h]
  apply loopState_again (fun _ _ _ => rfl)
  intro incoming r hrow
  exact Upsert.settles_of_conflict hrow (by simp [itemUpsert, currencyConflict])

theorem named_again {δ χ : Type} (what : String) (shown : String → Option (Named δ) → χ)
    (table : Table (Named δ)) (items : List (Row (Named δ))) :
    let first := (loopState true (prepareNamed what shown userID) namedConflict table items).table
    (loopState true (prepareNamed what shown userID) namedConflict first items).table = first ∧
      (loopState true (prepareNamed what shown userID) namedConflict first items).result.imported =
        0 := by
  apply loopState_again (fun _ _ _ => rfl)
  intro incoming r hrow
  exact Upsert.settles_of_conflict hrow (by simp [itemUpsert, namedConflict])

theorem categories_again {items : List (Row Category)}
    (h : db'.categories = (importCategories userID true db items).table) :
    (importCategories userID true db' items).table = db'.categories ∧
      (importCategories userID true db' items).result.imported = 0 := by
  rw [importCategories, h]
  exact named_again _ _ _ _

theorem paymentMethods_again {items : List (Row PaymentMethod)}
    (h : db'.paymentMethods = (importPaymentMethods userID true db items).table) :
    (importPaymentMethods userID true db' items).table = db'.paymentMethods ∧
      (importPaymentMethods userID true db' items).result.imported = 0 := by
  rw [importPaymentMethods, h]
  exact named_again _ _ _ _

/-- The row of a template is what its look-up asks for. -/
theorem prepareTemplate_finds {incoming r : NotificationTemplate}
    {item : Prepared NotificationTemplate PreviewTemplateChange}
    (h : prepareTemplate env userID incoming = .ok item) (hr : item.create = .ok r) :
    item.queries.any (· r) = true := by
  unfold prepareTemplate at h
  dsimp only at h
  split at h
  · cases h
  · split at h
    · cases h
    · split at h
      · cases h
      · split at h
        · cases h
        · cases h
          cases hr
          simp

theorem templates_again {items : List NotificationTemplate}
    (h : db'.templates = (importTemplates env userID true db items).table) :
    (importTemplates env userID true db' items).table = db'.templates ∧
      (importTemplates env userID true db' items).result.imported = 0 := by
  rw [importTemplates, h]
  exact loopState_again (fun _ _ _ => rfl) (settles_of_finds fun _ _ _ => prepareTemplate_finds)

theorem cutPrefix_append (start payload : String) :
    cutPrefix (start ++ payload) start = some payload := by
  rw [cutPrefix, String.toList_append,
    if_pos (List.isPrefixOf_iff_prefix.2 (List.prefix_append _ _)), List.drop_left,
    String.ofList_toList]

/-- `canonicalChannelConfig` after the decryption. -/
def canonicalText (env : ImportEnv Nonce Value) (text : String) : String :=
  if trimSpace text = "" then ""
  else
    match env.unmarshal (trimSpace text) with
    | none => trimSpace text
    | some parsed => (env.marshal parsed).getD (trimSpace text)

theorem canonicalChannelConfig_eq (config : String) :
    canonicalChannelConfig env config = canonicalText env
    ((decryptNotificationChannelConfig env config).getD config) := rfl

theorem canonicalText_idem (henv : env.Lawful) (text : String) :
    canonicalText env (canonicalText env text) = canonicalText env text := by
  have htrim := trimSpace_idem text
  by_cases hblank : trimSpace text = ""
  · have h : canonicalText env text = "" := if_pos hblank
    rw [h]
    rfl
  · cases hread : env.unmarshal (trimSpace text) with
    | none =>
      have h : canonicalText env text = trimSpace text := by simp [canonicalText, hblank, hread]
      rw [h]
      simp [canonicalText, htrim, hblank, hread]
    | some value =>
      cases hwrite : env.marshal value with
      | none =>
        have h : canonicalText env text = trimSpace text := by
          simp [canonicalText, hblank, hread, hwrite]
        rw [h]
        simp [canonicalText, htrim, hblank, hread, hwrite]
      | some written =>
        obtain ⟨htrimmed, hreread⟩ := henv.rereads _ _ _ hread hwrite
        have h : canonicalText env text = written := by simp [canonicalText, hblank, hread, hwrite]
        rw [h]
        by_cases hempty : written = ""
        · rw [hempty]
          rfl
        · simp [canonicalText, htrimmed, hempty, hreread, hwrite]

/-- A canonical config is canonical when it is read back from its sealed form. -/
theorem canonicalChannelConfig_sealed (henv : env.Lawful) (nonce : Nonce) (config : String)
    {encrypted : String}
    (h : encryptNotificationChannelConfig env nonce
      (canonicalChannelConfig env config) = some encrypted) :
    canonicalChannelConfig env encrypted = canonicalChannelConfig env config := by
  have hidem : canonicalText env
      (canonicalChannelConfig env config) = canonicalChannelConfig env config :=
      canonicalText_idem henv _
  generalize canonicalChannelConfig env config = canonical at h hidem
  unfold encryptNotificationChannelConfig at h
  split at h
  · rename_i hempty
    obtain rfl : "" = encrypted := Option.some.inj h
    rw [hempty]
    rfl
  · obtain ⟨sealed, hsealer, rfl⟩ := Option.map_eq_some_iff.1 h
    rw [canonicalChannelConfig_eq, decryptNotificationChannelConfig, cutPrefix_append]
    dsimp only
    rw [henv.opens sealed hsealer nonce canonical, Option.getD_some, hidem]

theorem prepareChannel_finds (henv : env.Lawful) {secretsRedacted : Bool}
    {incoming r : NotificationChannel} {nonce : Nonce}
    {item : Prepared NotificationChannel PreviewChannelChange}
    (h : prepareChannel env secretsRedacted userID incoming nonce = .ok item)
    (hr : item.create = .ok r) :
    item.queries.any (· r) = true := by
  have hsealed :=
    fun encrypted => @canonicalChannelConfig_sealed _ _ _ henv nonce incoming.config encrypted
  unfold prepareChannel at h
  dsimp only at h
  generalize canonicalChannelConfig env incoming.config = canonical at h hsealed
  generalize lowerTrimmed incoming.type = channelType at h
  split at h
  · simp only [reduceCtorEq] at h
  · split at h
    · simp only [reduceCtorEq] at h
    · split at h
      · simp only [reduceCtorEq] at h
      · split at h
        · simp only [reduceCtorEq] at h
        · obtain rfl := Except.ok.inj h
          dsimp only at hr
          generalize hstored : encryptNotificationChannelConfig env nonce canonical = stored at hr
          cases stored with
          | none => simp only [reduceCtorEq] at hr
          | some encrypted =>
            obtain rfl := Except.ok.inj hr
            simp [hsealed encrypted hstored]

/-- The random number only shows in the stored config. -/
theorem prepareChannel_nonce (secretsRedacted : Bool) (incoming : NotificationChannel)
    (nonce nonce' : Nonce) :
    (prepareChannel env secretsRedacted userID incoming nonce').map
    (fun item => (item.key, item.queries, item.create.isOk)) =
      (prepareChannel env secretsRedacted userID incoming nonce).map
        (fun item => (item.key, item.queries, item.create.isOk)) := by
  have hencrypt : ∀ value, (encryptNotificationChannelConfig env nonce' value).isSome =
      (encryptNotificationChannelConfig env nonce value).isSome := by
    intro value
    unfold encryptNotificationChannelConfig
    split
    · rfl
    · rw [Option.isSome_map, Option.isSome_map]
  unfold prepareChannel
  dsimp only
  generalize canonicalChannelConfig env incoming.config = canonical
  generalize lowerTrimmed incoming.type = channelType
  have hencrypt := hencrypt canonical
  split
  · rfl
  · split
    · rfl
    · split
      · rfl
      · split
        · rfl
        · generalize encryptNotificationChannelConfig env nonce canonical = stored at hencrypt ⊢
          generalize encryptNotificationChannelConfig env nonce' canonical = stored' at hencrypt ⊢
          cases stored <;> cases stored' <;> first | rfl | cases hencrypt

section Free
variable {ι α χ : Type} {prepare prepare' : ι → Except Refusal (Prepared α χ)}

/-- Without unique indexes it only matters what an item is found by and whether it has a row. -/
theorem creates_isSome_congr
    (h : ∀ i, (prepare' i).map (fun item => (item.key, item.queries, item.create.isOk)) =
      (prepare i).map (fun item => (item.key, item.queries, item.create.isOk))) (rows : List α)
        (before : List ι) (i : ι) :
    ((itemUpsert prepare' fun _ _ => false).creates rows before i).isSome =
      ((itemUpsert prepare fun _ _ => false).creates rows before i).isSome := by
  have hsome : ∀ prepare : ι → Except Refusal (Prepared α χ),
      ((itemUpsert prepare fun _ _ => false).creates rows before i).isSome =
      ((itemUpsert prepare fun _ _ => false).marks rows before i &&
        ((itemUpsert prepare fun _ _ => false).row i).isSome) := by
    intro prepare
    have hfilter : (fun r : α => !rows.any ((itemUpsert prepare fun _ _ => false).conflict r)) =
        fun _ => true := by
      funext r
      simp [itemUpsert]
    rw [Upsert.creates, hfilter]
    cases (itemUpsert prepare fun _ _ => false).marks rows before i <;> cases
      (itemUpsert prepare fun _ _ => false).row i <;> rfl
  have hitem : ∀ i, (itemUpsert prepare' fun _ _ => false).key i =
      (itemUpsert prepare fun _ _ => false).key i ∧
      (itemUpsert prepare' fun _ _ => false).hit i = (itemUpsert prepare fun _ _ => false).hit i ∧
      ((itemUpsert prepare' fun _ _ => false).row i).isSome =
        ((itemUpsert prepare fun _ _ => false).row i).isSome := by
    intro i
    have hi := h i
    cases hp : prepare i with
    | error refusal =>
      cases hp' : prepare' i with
      | error refusal' => simp [itemUpsert, hp, hp', Except.toOption]
      | ok item' => simp [hp, hp', Except.map] at hi
    | ok item =>
      cases hp' : prepare' i with
      | error refusal' => simp [hp, hp', Except.map] at hi
      | ok item' =>
        simp only [hp, hp', Except.map, Except.ok.injEq, Prod.mk.injEq] at hi
        obtain ⟨hkey, hqueries, hok⟩ := hi
        refine ⟨by simp [itemUpsert, hp, hp', Except.toOption, hkey],
          by simp [itemUpsert, hp, hp', Except.toOption, hqueries], ?_⟩
        rw [(itemUpsert_ok _ hp).2.1, (itemUpsert_ok _ hp').2.1]
        cases hc : item.create <;> cases hc' : item'.create <;> simp
          [hc, hc', Except.isOk, Except.toBool, Except.toOption] at hok ⊢
  have hseen : (itemUpsert prepare' fun _ _ => false).seen before =
      (itemUpsert prepare fun _ _ => false).seen before :=
    List.filterMap_congr fun i _ => (hitem i).1
  rw [hsome, hsome, (hitem i).2.2, Upsert.marks, Upsert.marks, Upsert.fresh, Upsert.fresh,
    (hitem i).1, (hitem i).2.1, hseen]
  rfl

end Free

theorem channels_again (henv : env.Lawful) {first : ImportReadings Nonce}
    (second : ImportReadings Nonce) {secretsRedacted : Bool} {items : List NotificationChannel}
    (h : db'.channels = (importChannels env first secretsRedacted userID true db items).table) :
    (importChannels env second secretsRedacted userID true db' items).table = db'.channels ∧
      (importChannels env second secretsRedacted userID true db' items).result.imported = 0 := by
  rw [importChannels, h]
  apply loopState_again (creates_isSome_congr fun item : NotificationChannel × Nat =>
    prepareChannel_nonce secretsRedacted item.1 (first.nonce item.2) (second.nonce item.2))
    (settles_of_finds fun _ _ _ => prepareChannel_finds henv)

end Kinds

/-! ## The preference and the policy -/

section Outcomes
variable {userID : Nat} {data : SubduxImportData} {db db' : ImportDB}

/-- Nothing is written. -/
def Outcome.IsIdle {α : Type} : Outcome α → Prop
  | .create _ | .update _ => False
  | _ => True

theorem Outcome.IsIdle.result {α : Type} {outcome : Outcome α} (h : outcome.IsIdle) :
    outcome.result.imported = 0 := by
  cases outcome <;> first | rfl | exact h.elim

theorem Outcome.IsIdle.apply {α : Type} {outcome : Outcome α} (h : outcome.IsIdle)
    (ofUser : α → Bool) (rows : List α) :
    outcome.apply ofUser rows = rows := by
  cases outcome <;> first | rfl | exact h.elim

theorem find?_updateWhere {α : Type} {ofUser : α → Bool} {row existing : α} {rows : List α}
    (hrow : ofUser row = true) (h : rows.find? ofUser = some existing) :
    (Rows.updateWhere ofUser (fun _ => row) rows).find? ofUser = some row := by
  induction rows with
  | nil => cases h
  | cons r rows ih =>
    rw [Rows.updateWhere, List.map_cons]
    cases hr : ofUser r with
    | true => simp [hrow]
    | false =>
      rw [List.find?_cons_of_neg (by rw [hr]; decide)] at h
      rw [List.find?_cons_of_neg (by simp [hr])]
      exact ih h

theorem preferenceOutcome_again
    (h : db'.preferences = (preferenceOutcome userID data db).apply (·.userID = userID) db.preferences) :
    (preferenceOutcome userID data db').IsIdle := by
  unfold preferenceOutcome at h ⊢
  generalize data.preference = given at h ⊢
  cases given with
  | none => trivial
  | some preference =>
    dsimp only at h ⊢
    generalize toUpper (trimSpace preference.preferredCurrency) = incomingCurrency at h ⊢
    by_cases hblank : incomingCurrency = ""
    · rw [if_pos hblank]
      trivial
    · rw [if_neg hblank] at h ⊢
      have hfound : db'.preferences.find? (·.userID = userID) = some ⟨userID, incomingCurrency⟩ ∨
          ∃ existing, db'.preferences.find? (·.userID = userID) = some existing ∧
            existing.preferredCurrency = incomingCurrency := by
        cases hfind : db.preferences.find? (·.userID = userID) with
        | none =>
          rw [hfind] at h
          rw [h, Outcome.apply, List.find?_append, hfind]
          exact .inl (by simp)
        | some existing =>
          rw [hfind] at h
          dsimp only at h
          split at h
          · rw [h]
            exact .inl (find?_updateWhere (by simp) hfind)
          · rename_i hsame
            rw [h]
            exact .inr ⟨existing, hfind, not_not.1 hsame⟩
      rcases hfound with hfound | ⟨existing, hfound, hsame⟩
      · rw [hfound]
        simp [Outcome.IsIdle]
      · rw [hfound]
        simp [hsame, Outcome.IsIdle]

theorem policyOutcome_again
    (h : db'.policies = (policyOutcome userID data db).apply (·.userID = userID) db.policies) :
    (policyOutcome userID data db').IsIdle := by
  unfold policyOutcome at h ⊢
  generalize data.policy = given at h ⊢
  cases given with
  | none => trivial
  | some incoming =>
    dsimp only at h ⊢
    by_cases hdays : incoming.daysBefore < 0 ∨ maxNotificationDaysBefore < incoming.daysBefore
    · rw [if_pos hdays]
      trivial
    · rw [if_neg hdays] at h ⊢
      have hfound : ∃ existing, db'.policies.find? (·.userID = userID) = some existing ∧
          existing.daysBefore = incoming.daysBefore ∧
          existing.notifyOnDueDay = incoming.notifyOnDueDay ∧
          existing.notifyManualRenewDaily = incoming.notifyManualRenewDaily := by
        cases hfind : db.policies.find? (·.userID = userID) with
        | none =>
          rw [hfind] at h
          rw [h, Outcome.apply, List.find?_append, hfind]
          exact ⟨{ incoming with userID := userID }, by simp, rfl, rfl, rfl⟩
        | some existing =>
          rw [hfind] at h
          dsimp only at h
          split at h
          · rw [h]
            exact ⟨{ incoming with userID := userID }, find?_updateWhere (by simp) hfind, rfl, rfl, rfl⟩
          · rename_i hsame
            rw [h]
            simp only [not_or, not_not] at hsame
            exact ⟨existing, hfind, hsame⟩
      obtain ⟨existing, hfound, hdaysBefore, hdueDay, hmanual⟩ := hfound
      rw [hfound]
      simp [hdaysBefore, hdueDay, hmanual, Outcome.IsIdle]

end Outcomes

/-! ## Subscriptions -/

section Subscriptions
variable {parseURL : String → Option ParsedURL} {userID : Nat} {incoming : Subscription}

theorem normalizedSubscription_texts (incoming : Subscription) :
    (normalizedSubscription incoming).name = trimSpace incoming.name ∧
      (normalizedSubscription incoming).currency = toUpper (trimSpace incoming.currency) := by
  cases hbilling : billingOf (trimmedSubscription incoming) with
  | error err =>
    rw [normalizedSubscription_error hbilling]
    exact ⟨rfl, rfl⟩
  | ok result =>
    rw [normalizedSubscription_ok hbilling]
    exact ⟨rfl, rfl⟩

/-- The texts of a normalized schedule have no space around them. -/
theorem BillingDraft.Fields.trimmed {draft : BillingDraft} (h : draft.Fields) :
    trimSpace draft.recurrenceType = draft.recurrenceType ∧
    trimSpace draft.intervalUnit = draft.intervalUnit := by
  have hconst : ∀ s ∈
      [recurrenceTypeInterval, recurrenceTypeMonthlyDate, recurrenceTypeYearlyDate, intervalUnitDay,
       intervalUnitWeek,
      intervalUnitMonth, intervalUnitYear, ""], trimSpace s = s := by decide
  cases h with
  | interval type intervalCount pos unit monthlyDay yearlyMonth yearlyDay =>
    rw [type]
    refine ⟨hconst _ (by simp), hconst _ ?_⟩
    simp only [isValidIntervalUnit, decide_eq_true_eq] at unit
    simp only [List.mem_cons, List.not_mem_nil, or_false]
    tauto
  | monthlyDate type monthlyDay range intervalCount unit yearlyMonth yearlyDay =>
    rw [type, unit]
    exact ⟨hconst _ (by simp), hconst _ (by simp)⟩
  | yearlyDate type yearlyMonth yearlyDay months days intervalCount unit monthlyDay =>
    rw [type, unit]
    exact ⟨hconst _ (by simp), hconst _ (by simp)⟩

/-- A normalized item looks for its own columns. -/
theorem wanted_normalized (h : isSupported incoming = true) :
    wanted userID (normalizedSubscription incoming) =
    { identity (normalizedSubscription incoming) with userID := userID } := by
  obtain ⟨date, hdate⟩ := normalized_of_isSupported h
  obtain ⟨hname, hcurrency⟩ := normalizedSubscription_texts incoming
  obtain ⟨hrecurrence, hunit⟩ := BillingDraft.Fields.trimmed hdate.fields
  have hbilling : trimSpace (normalizedSubscription incoming).billingType =
      (normalizedSubscription incoming).billingType := by
    rw [show (normalizedSubscription incoming).billingType = billingTypeRecurring from hdate.billingType]
    decide
  have hname' : trimSpace (normalizedSubscription incoming).name =
      (normalizedSubscription incoming).name := by
    rw [hname, trimSpace_idem]
  have hcurrency' : trimSpace (normalizedSubscription incoming).currency =
      (normalizedSubscription incoming).currency := by
    rw [hcurrency, trimSpace_toUpper]
  simp only [wanted, identity, hname', hcurrency', hbilling, Identity.mk.injEq, true_and, and_true]
  exact ⟨hrecurrence, hunit⟩

theorem currency_eq_empty (incoming : Subscription) :
    (normalizedSubscription incoming).currency = "" ↔ trimSpace incoming.currency = "" := by
  rw [(normalizedSubscription_texts incoming).2, toUpper_eq_empty]

/-- A row stands in the way of its own item unless its blank currency was replaced. -/
theorem settles_iff (h : isSupported incoming = true) (hrow : isStorable parseURL incoming = true) :
    (subscriptionUpsert parseURL userID).settles incoming = true ↔ trimSpace incoming.currency ≠ "" := by
  have hnew : (subscriptionUpsert parseURL userID).row incoming = some
      (storedIdentity userID (normalizedSubscription incoming)) :=
    if_pos hrow
  rw [Upsert.settles, hnew, Option.any_some, Ne, ← currency_eq_empty]
  simp only [subscriptionUpsert, Bool.or_false, decide_eq_true_eq, wanted_normalized h,
    storedIdentity, identity, Identity.mk.injEq]
  constructor
  · rintro ⟨-, -, -, hcurrency, -⟩ hblank
    rw [hblank] at hcurrency
    exact absurd hcurrency (by decide)
  · intro hne
    simp [orDefault_of_ne hne]

/-- What a second run inserts: the items with a blank currency that the first one had
nothing to match with. -/
theorem creates_again {rows : List Identity} {items before after : List Subscription}
    (hitems : items = before ++ incoming :: after) :
    (subscriptionUpsert parseURL userID).creates
    ((subscriptionUpsert parseURL userID).run rows items) before incoming = none ↔
      ¬ (trimSpace incoming.currency = "" ∧
        (subscriptionUpsert parseURL userID).marks rows before incoming = true ∧
        isStorable parseURL incoming = true) := by
  have hfree : ∀ (i : Subscription) (r : Identity), (subscriptionUpsert parseURL userID).valid i = true →
      (subscriptionUpsert parseURL userID).row i = some r →
        (subscriptionUpsert parseURL userID).settles i = false →
      ∀ (j : Subscription) (s : Identity), (subscriptionUpsert parseURL userID).row j = some s →
        (subscriptionUpsert parseURL userID).hit i s = false ∧
          (subscriptionUpsert parseURL userID).conflict r s = false := by
    intro i r hvalid hrow hsettles j s hs
    have hstorable : isStorable parseURL i = true := by
      by_contra h
      rw [show (subscriptionUpsert parseURL userID).row i = none from if_neg h] at hrow
      cases hrow
    have hblank : trimSpace i.currency = "" := by
      by_contra h
      rw [(settles_iff hvalid hstorable).2 h] at hsettles
      cases hsettles
    refine ⟨?_, rfl⟩
    -- No row that was inserted has a blank currency.
    have hs : s.currency ≠ "" := by
      simp only [subscriptionUpsert] at hs
      split at hs
      · obtain rfl := Option.some.inj hs
        simp only [storedIdentity, orDefault]
        split
        · decide
        · assumption
      · cases hs
    simp only [subscriptionUpsert, decide_eq_false_iff_not,
      wanted_normalized (show isSupported i = true from hvalid)]
    rintro rfl
    exact hs ((currency_eq_empty i).2 hblank)
  rw [Option.eq_none_iff_forall_ne_some, not_and_or, not_and_or]
  constructor
  · intro h
    by_contra hall
    simp only [not_or, not_not] at hall
    obtain ⟨hblank, hmarks, hstorable⟩ := hall
    have hvalid : isSupported incoming = true := Upsert.valid_of_fresh (Upsert.marks_iff.1 hmarks).1
    refine h (storedIdentity userID (normalizedSubscription incoming))
      ((Upsert.creates_run_iff hfree hitems).2 ⟨?_, ?_⟩)
    · rw [← Bool.not_eq_true, settles_iff hvalid hstorable, not_not]
      exact hblank
    · rw [subscription_creates, hmarks, hstorable]
      rfl
  · rintro h r hr
    obtain ⟨hsettles, hcreates⟩ := (Upsert.creates_run_iff hfree hitems).1 hr
    rw [subscription_creates] at hcreates
    split at hcreates
    · rename_i hboth
      obtain ⟨hmarks, hstorable⟩ := Bool.and_eq_true_iff.1 hboth
      have hvalid : isSupported incoming = true := Upsert.valid_of_fresh (Upsert.marks_iff.1 hmarks).1
      have hblank : trimSpace incoming.currency = "" := by
        rw [← Bool.not_eq_true, settles_iff hvalid hstorable, not_not] at hsettles
        exact hsettles
      exact h.elim (· hblank) (·.elim (· hmarks) (· hstorable))
    · cases hcreates

section Loop
variable {Nonce Value : Type} {env : ImportEnv Nonce Value} {readings : ImportReadings Nonce}
  {db : ImportDB} {data : SubduxImportData}
  {items : List Subscription}

/-- A run that has nothing to insert. -/
theorem importSubscriptions_idle
    (hnone : ∀ before incoming after, items = before ++ incoming :: after →
      (subscriptionUpsert env.parseURL userID).creates
        (db.subscriptions.rows.map identity) before incoming = none) :
    (importSubscriptions env readings userID db data items).table = db.subscriptions ∧
      (importSubscriptions env readings userID db data items).imported = 0 := by
  have hprefix : ∀ before after, items = before ++ after →
      (importSubscriptions env readings userID db data before).table = db.subscriptions ∧
        (importSubscriptions env readings userID db data before).imported = 0 := by
    intro before
    induction before using List.reverseRecOn with
    | nil => exact fun _ _ => ⟨rfl, rfl⟩
    | append_singleton before incoming ih =>
      intro after hitems
      rw [List.append_assoc] at hitems
      obtain ⟨htable, himported⟩ := ih _ hitems
      have hspec : SubscriptionSpec env.parseURL userID
          (importSubscriptions env readings userID db data before) before incoming _ :=
        importSubscriptions_spec before incoming
      have hcreates : (subscriptionUpsert env.parseURL userID).creates
          ((importSubscriptions env readings userID db data before).table.rows.map identity) before
            incoming = none := by
        rw [htable]
        exact hnone before incoming after hitems
      exact ⟨by rw [hspec.table hcreates, htable], by rw [hspec.imported, hcreates, himported]; rfl⟩
  exact hprefix items [] (List.append_nil items).symm

end Loop

end Subscriptions

/-! ## The whole import -/

section Import
variable {Nonce Value : Type} {env : ImportEnv Nonce Value} {first second : ImportReadings Nonce}
  {userID : Nat} {data : SubduxImportData}
  {db db' : ImportDB}

/-- The tables and the count after a confirmed run. -/
structure Confirmed (env : ImportEnv Nonce Value) (readings : ImportReadings Nonce) (userID : Nat)
    (data : SubduxImportData) (db : ImportDB) (imported : Nat) (db' : ImportDB) : Prop where
  currencies : db'.currencies = (importCurrencies userID true db (data.currencies.getD [])).table
  categories : db'.categories = (importCategories userID true db (data.categories.getD [])).table
  paymentMethods : db'.paymentMethods =
    (importPaymentMethods userID true db (data.paymentMethods.getD [])).table
  channels : db'.channels =
    (importChannels env readings (subduxImportSecretsRedacted data) userID true db data.channels).table
  templates : db'.templates = (importTemplates env userID true db data.templates).table
  subscriptions : db'.subscriptions =
    (importSubscriptions env readings userID db data (data.subscriptions.getD [])).table
  preferences : db'.preferences = (preferenceOutcome userID data db).apply
    (·.userID = userID) db.preferences
  policies : db'.policies = (policyOutcome userID data db).apply (·.userID = userID) db.policies
  imported : imported = (importCurrencies userID true db (data.currencies.getD [])).result.imported +
    (importCategories userID true db (data.categories.getD [])).result.imported +
    (importPaymentMethods userID true db (data.paymentMethods.getD [])).result.imported +
    (importChannels env readings
      (subduxImportSecretsRedacted data) userID true db data.channels).result.imported +
    (importTemplates env userID true db data.templates).result.imported +
    (importSubscriptions env readings userID db data (data.subscriptions.getD [])).imported +
    (preferenceOutcome userID data db).result.imported + (policyOutcome userID data db).result.imported

theorem importFromSubdux_confirm (hvalid : validateSubduxImportData data = .ok ())
    (env : ImportEnv Nonce Value) (readings : ImportReadings Nonce) (userID : Nat) (db : ImportDB) :
    ∃ result db', importFromSubdux env readings userID data true db = .ok (.result result, db') ∧
      Confirmed env readings userID data db result.imported db' := by
  have himport : ∃ result db', importFromSubdux env readings userID data true db = .ok
      (.result result, db') := by
    simp only [importFromSubdux, hvalid, if_true]
    exact ⟨_, _, rfl⟩
  obtain ⟨result, db', himport⟩ := himport
  refine ⟨result, db', himport, ?_⟩
  simp only [importFromSubdux, hvalid, if_true, Except.ok.injEq, Prod.mk.injEq,
    SubduxImportResponse.result.injEq] at himport
  obtain ⟨rfl, rfl⟩ := himport
  refine ⟨rfl, rfl, rfl, rfl, rfl, rfl, rfl, rfl, ?_⟩
  simp [ImportResult.add]

/-- The second run creates nothing, and leaves the tables as they are. -/
def ReimportIdle (env : ImportEnv Nonce Value) (second : ImportReadings Nonce) (userID : Nat)
    (data : SubduxImportData) (db : ImportDB) :
    Prop :=
  ∃ result, importFromSubdux env second userID data true db = .ok (.result result, db) ∧
    result.imported = 0

/-- A second import of a file creates nothing if and only if no subscription without a
currency is created by the first one. -/
theorem reimport_idle_iff (henv : env.Lawful) {response : SubduxImportResponse}
    (h : importFromSubdux env first userID data true db = .ok (response, db')) :
    ReimportIdle env second userID data db' ↔
      ∀ before incoming after, data.subscriptions.getD [] = before ++ incoming :: after →
        ¬ (trimSpace incoming.currency = "" ∧
          (subscriptionUpsert env.parseURL userID).marks
            (db.subscriptions.rows.map identity) before incoming = true ∧
          isStorable env.parseURL incoming = true) := by
  have hvalid : validateSubduxImportData data = .ok () := by
    unfold importFromSubdux at h
    split at h
    · cases h
    · assumption
  obtain ⟨result₁, db₁, hfirst, hdb₁⟩ := importFromSubdux_confirm hvalid env first userID db
  obtain rfl : db₁ = db' := by
    rw [hfirst] at h
    cases h
    rfl
  obtain ⟨result₂, db₂, hsecond, hdb₂⟩ := importFromSubdux_confirm hvalid env second userID db₁
  -- seven of the eight tables find all their keys the second time
  have hcurrencies := currencies_again hdb₁.currencies
  have hcategories := categories_again hdb₁.categories
  have hpaymentMethods := paymentMethods_again hdb₁.paymentMethods
  have hchannels := channels_again henv second hdb₁.channels
  have htemplates := templates_again hdb₁.templates
  have hpreference := preferenceOutcome_again hdb₁.preferences
  have hpolicy := policyOutcome_again hdb₁.policies
  have hidentities : db₁.subscriptions.rows.map identity =
      (subscriptionUpsert env.parseURL userID).run (db.subscriptions.rows.map identity)
        (data.subscriptions.getD []) := by
    rw [hdb₁.subscriptions, importSubscriptions_identities]
  -- the subscriptions are what is left: an item is created again exactly when its key changed
  have hcreates : ∀ before incoming after, data.subscriptions.getD [] = before ++ incoming :: after →
      ((subscriptionUpsert env.parseURL userID).creates
        (db₁.subscriptions.rows.map identity) before incoming = none ↔
        ¬ (trimSpace incoming.currency = "" ∧
          (subscriptionUpsert env.parseURL userID).marks
            (db.subscriptions.rows.map identity) before incoming = true ∧
          isStorable env.parseURL incoming = true)) := by
    intro before incoming after hitems
    rw [hidentities]
    exact creates_again hitems
  constructor
  · rintro ⟨result, hresult, -⟩
    rw [hsecond] at hresult
    obtain rfl : db₂ = db₁ := by
      cases hresult
      rfl
    have hrun : (importSubscriptions env second userID db₂ data
        (data.subscriptions.getD [])).table.rows.map identity = _ :=
      importSubscriptions_identities (data.subscriptions.getD [])
    rw [← hdb₂.subscriptions] at hrun
    intro before incoming after hitems
    exact (hcreates before incoming after hitems).1
      (Upsert.run_eq_self_iff.1 hrun.symm before incoming after hitems)
  · intro h
    have hnone :=
      fun before incoming after hitems => (hcreates before incoming after hitems).2
        (h before incoming after hitems)
    have hsubscriptions :
        (importSubscriptions env second userID db₁ data (data.subscriptions.getD [])).table = _ ∧ _ :=
      importSubscriptions_idle hnone
    refine ⟨result₂, ?_, ?_⟩
    · rw [hsecond]
      have hdb : db₂ = db₁ := by
        apply ImportDB.ext
        · rw [hdb₂.currencies, hcurrencies.1]
        · rw [hdb₂.categories, hcategories.1]
        · rw [hdb₂.paymentMethods, hpaymentMethods.1]
        · rw [hdb₂.channels, hchannels.1]
        · rw [hdb₂.templates, htemplates.1]
        · rw [hdb₂.subscriptions, hsubscriptions.1]
        · rw [hdb₂.preferences, hpreference.apply]
        · rw [hdb₂.policies, hpolicy.apply]
      rw [hdb]
    · rw [hdb₂.imported, hcurrencies.2, hcategories.2, hpaymentMethods.2, hchannels.2, htemplates.2,
        hsubscriptions.2,
        hpreference.result, hpolicy.result]

end Import

/-! ## A subscription without a currency -/

theorem bareEnv_lawful : bareEnv.Lawful where
  opens sealed h := by cases h
  rereads text value text' h := by cases h

/-- A monthly subscription of a file. -/
def listedSubscription (currency : String) : Subscription where
  id := 1
  userID := 1
  name := "Music"
  amount := 9
  currency := currency
  enabled := true
  status := "active"
  renewalMode := "auto_renew"
  endsAt := none
  billingType := "recurring"
  recurrenceType := "interval"
  intervalCount := some 1
  intervalUnit := "month"
  monthlyDay := none
  yearlyMonth := none
  yearlyDay := none
  nextBillingDate := some (midnight 20000)
  category := ""
  categoryID := none
  paymentMethodID := none
  notifyEnabled := none
  notifyDaysBefore := none
  icon := ""
  url := ""
  notes := ""

theorem reimport_idle_usd : ∃ response db',
    importFromSubdux bareEnv bareReadings 1
    (bareFile [] [listedSubscription "usd"]) true emptyDB = .ok (response, db') ∧
      ReimportIdle bareEnv bareReadings 1 (bareFile [] [listedSubscription "usd"]) db' := by
  have hvalid : validateSubduxImportData (bareFile [] [listedSubscription "usd"]) = .ok () := by decide
  obtain ⟨result, db', himport, -⟩ := importFromSubdux_confirm hvalid bareEnv bareReadings 1 emptyDB
  refine ⟨_, db', himport, (reimport_idle_iff bareEnv_lawful himport).2 ?_⟩
  intro before incoming after hitems hblank
  have hmem : incoming ∈ [listedSubscription "usd"] := by
    rw [show [listedSubscription "usd"] = before ++ incoming :: after from hitems]
    simp
  have hcurrency : ∀ incoming ∈ [listedSubscription "usd"], trimSpace incoming.currency ≠ "" := by decide
  exact hcurrency incoming hmem hblank.1

/-- The rows after an import of the same file, again and again. -/
def importedTimes (file : SubduxImportData) : Nat → ImportDB
  | 0 => emptyDB
  | n + 1 =>
    match importFromSubdux bareEnv bareReadings 1 file true (importedTimes file n) with
    | .ok (_, db) => db
    | .error _ => importedTimes file n

/-- It is stored in dollars and not found again. -/
theorem reimport_repeats_blank : ∃ response db',
    importFromSubdux bareEnv bareReadings 1 (bareFile [] [listedSubscription ""]) true emptyDB = .ok
    (response, db') ∧
      ¬ ReimportIdle bareEnv bareReadings 1 (bareFile [] [listedSubscription ""]) db' := by
  have hvalid : validateSubduxImportData (bareFile [] [listedSubscription ""]) = .ok () := by decide
  obtain ⟨result, db', himport, -⟩ := importFromSubdux_confirm hvalid bareEnv bareReadings 1 emptyDB
  refine ⟨_, db', himport, ?_⟩
  have honce : importedTimes (bareFile [] [listedSubscription ""]) 1 = db' := by
    simp only [importedTimes, himport]
  rintro ⟨result', hresult', -⟩
  have hrows : (importedTimes (bareFile [] [listedSubscription ""]) 1).subscriptions.rows.length =
      1 := by decide +kernel
  have hrows' : (importedTimes (bareFile [] [listedSubscription ""]) 2).subscriptions.rows.length =
      2 := by decide +kernel
  rw [importedTimes, honce, hresult'] at hrows'
  rw [honce] at hrows
  exact absurd (hrows.symm.trans hrows') (by decide)

end Subdux.ImportService
