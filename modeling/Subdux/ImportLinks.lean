import Subdux.ImportAgain
/-!
# What an import links to

A confirmed import into an account without rows: which categories and payment methods of
the file get a row of their own (`keptNamed`, `namedState_table`), and what their old ids
are mapped to (`named_linked`).
-/

namespace Subdux.ImportService
open GoStrings Upserts

/-! ## The categories that get a row -/

section Kept
variable {δ χ : Type} {userID owner : Nat}

/-- No item before has the key, and none that got a row is found under the name. -/
def keeps (before kept : List (Named δ)) (c : Named δ) : Bool :=
  (before.all fun d => namedKey d ≠ namedKey c) && kept.all fun d => sqlLower d.name ≠ toLower
    (trimSpace c.name)

/-- The items before, and those among them that get a row. -/
def keptStep (s : List (Named δ) × List (Named δ)) (c : Named δ) : List (Named δ) × List (Named δ) :=
  (s.1 ++ [c], if keeps s.1 s.2 c then s.2 ++ [c] else s.2)

/-- The items of a file that get a row in an account without rows. -/
def keptNamed (items : List (Named δ)) : List (Named δ) := (items.foldl keptStep ([], [])).2

theorem foldl_keptStep_fst (items : List (Named δ)) (s : List (Named δ) × List (Named δ)) :
    (items.foldl keptStep s).1 = s.1 ++ items := by
  induction items generalizing s with
  | nil => simp
  | cons c items ih => rw [List.foldl_cons, ih, keptStep, List.append_assoc, List.singleton_append]

theorem keptNamed_snoc (items : List (Named δ)) (c : Named δ) :
    keptNamed (items ++ [c]) = if keeps items (keptNamed items) c then keptNamed items ++ [c]
    else keptNamed items := by
  rw [keptNamed, List.foldl_append, List.foldl_cons, List.foldl_nil, keptStep, foldl_keptStep_fst,
    List.nil_append]
  rfl

theorem keptNamed_subset (items : List (Named δ)) : keptNamed items ⊆ items := by
  induction items using List.reverseRecOn with
  | nil => exact List.Subset.refl _
  | append_singleton items c ih =>
    rw [keptNamed_snoc]
    have hold : keptNamed items ⊆ items ++ [c] := fun d hd => List.mem_append_left _ (ih hd)
    split
    · exact List.append_subset.2 ⟨hold, List.subset_append_right _ _⟩
    · exact hold

/-- The categories or payment methods of one account: trimmed names, and what the unique
indexes say. -/
structure NamesAllowed (owner : Nat) (items : List (Named δ)) : Prop where
  owner : ∀ c ∈ items, c.userID = owner
  trimmed : ∀ c ∈ items, trimSpace c.name = c.name ∧ c.name ≠ ""
  distinct : items.Pairwise fun d c => namedConflict d c = false

theorem NamesAllowed.left {items rest : List (Named δ)} (h : NamesAllowed owner (items ++ rest)) :
    NamesAllowed owner items where
  owner c hc := h.owner c (List.mem_append_left _ hc)
  trimmed c hc := h.trimmed c (List.mem_append_left _ hc)
  distinct := (List.pairwise_append.1 h.distinct).1

/-- The row that an import stores of an item. -/
def adopt (userID : Nat) (c : Named δ) : Named δ := { c with userID := userID }

theorem givenSystemKey_some {c : Named δ} {key : String} (h : givenSystemKey c = some key) :
    trimSpace key = key ∧ key ≠ "" := by
  obtain ⟨hmap, hne⟩ := Option.filter_eq_some_iff.1 h
  obtain ⟨raw, -, rfl⟩ := Option.map_eq_some_iff.1 hmap
  exact ⟨trimSpace_idem raw, of_decide_eq_true hne⟩

/-- What is stored under a trimmed system key has the same key in the file. -/
theorem namedKey_of_systemKey {c d : Named δ} {key : String} (h : givenSystemKey c = some key)
    (hd : d.systemKey = some key) :
    namedKey d = namedKey c := by
  obtain ⟨htrim, hne⟩ := givenSystemKey_some h
  have hgiven : givenSystemKey d = some key := by
    rw [givenSystemKey, hd, Option.map_some, htrim, Option.filter_some, decide_eq_true hne]
    rfl
  rw [namedKey, namedKey, hgiven, h]

/-- An item with another key is found by its name only. -/
theorem findBySystemKeyOrName_adopt {c d : Named δ} (hname : trimSpace c.name ≠ "")
    (hkey : namedKey d ≠ namedKey c) :
    ((findBySystemKeyOrName userID c).any fun query => query (adopt userID d)) = decide
    (sqlLower d.name = toLower (trimSpace c.name)) := by
  have hbyName : isNamed userID (trimSpace c.name) (adopt userID d) = decide
      (sqlLower d.name = toLower (trimSpace c.name)) :=
    decide_eq_decide.2 ⟨And.right, fun h => ⟨rfl, h⟩⟩
  have hlist : findBySystemKeyOrName userID c =
      ((givenSystemKey c).map fun key (row : Named δ) =>
        decide (row.userID = userID ∧ row.systemKey = some key)).toList ++
        [isNamed userID (trimSpace c.name)] := by
    rw [findBySystemKeyOrName, if_neg hname]
  rw [hlist, List.any_append, ← hbyName]
  cases hgiven : givenSystemKey c with
  | none => exact Bool.or_false _
  | some key =>
    have hother : d.systemKey ≠ some key := fun hd => hkey (namedKey_of_systemKey hgiven hd)
    have hquery : decide
        ((adopt userID d).userID = userID ∧ (adopt userID d).systemKey = some key) = false :=
      decide_eq_false fun h => hother h.2
    simp only [Option.map_some, Option.toList_some, List.any_cons, List.any_nil, hquery,
      Bool.or_false, Bool.false_or]

/-- Nothing of another account is found. -/
theorem findBySystemKeyOrName_other {c row : Named δ} (hrow : row.userID ≠ userID) :
    ((findBySystemKeyOrName userID c).any fun query => query row) = false := by
  rw [findBySystemKeyOrName, List.any_append]
  cases givenSystemKey c <;> by_cases hname : trimSpace c.name = "" <;> simp [hname, isNamed, hrow]

section Run
variable {rows : List (Named δ)} {before after items : List (Row (Named δ))} {c : Row (Named δ)}

theorem seen_named (h : NamesAllowed owner (items.map (·.columns))) :
    (namedUpsert userID).seen items = items.map fun c => namedKey c.columns := by
  rw [Upsert.seen, ← List.filterMap_eq_map]
  apply List.filterMap_congr
  intro c hc
  obtain ⟨htrim, hne⟩ := h.trimmed _ (List.mem_map_of_mem hc)
  exact if_neg (by rw [htrim]; exact hne)

theorem conflict_adopt {c d : Named δ} (howner : d.userID = c.userID) (h : namedConflict d c = false) :
    namedConflict (adopt userID c) (adopt userID d) = false := by
  simp only [namedConflict, adopt, decide_eq_false_iff_not, howner, true_and, not_or, not_and] at h ⊢
  exact ⟨fun hname => h.1 hname.symm, fun hsome hkey => h.2 (hkey ▸ hsome) hkey.symm⟩

/-- What the loop does with an item, in an account without rows. -/
theorem creates_named (h : NamesAllowed owner ((before ++ [c]).map (·.columns)))
    (hrows : ∀ row ∈ rows, row.userID ≠ userID) :
    (namedUpsert userID).creates
    (rows ++ (keptNamed (before.map (·.columns))).map (adopt userID)) before c =
      if keeps (before.map (·.columns)) (keptNamed (before.map (·.columns))) c.columns
        then some (adopt userID c.columns) else none := by
  rw [List.map_append] at h
  obtain ⟨htrim, hne⟩ := h.trimmed c.columns (by simp)
  have hname : trimSpace c.columns.name ≠ "" := by rw [htrim]; exact hne
  have hkey : (namedUpsert userID).key c = some (namedKey c.columns) := if_neg hname
  have hrow : (namedUpsert userID).row c = some (adopt userID c.columns) := by
    refine (if_neg hname).trans ?_
    rw [htrim]
    rfl
  have hhit : ∀ row, (namedUpsert userID).hit c row = (findBySystemKeyOrName userID c.columns).any
      fun query => query row := by
    intro row
    show (decide (trimSpace c.columns.name ≠ "") && _) = _
    rw [decide_eq_true hname, Bool.true_and]
  -- the items before have the keys of the exported rows
  have hfresh : (namedUpsert userID).fresh before c = (before.map (·.columns)).all fun d =>
      namedKey d ≠ namedKey c.columns := by
    rw [Upsert.fresh, hkey, Option.any_some, seen_named h.left, Bool.eq_iff_iff]
    simp [namedUpsert]
  have hconflict : ∀ d ∈ before.map (·.columns), namedConflict (adopt userID c.columns)
      (adopt userID d) = false := by
    intro d hd
    refine conflict_adopt ?_ ((List.pairwise_append.1 h.distinct).2.2 d hd c.columns (by simp))
    rw [h.owner d (List.mem_append_left _ hd), h.owner c.columns (by simp)]
  cases hkeeps : keeps (before.map (·.columns)) (keptNamed (before.map (·.columns))) c.columns with
  | true =>
    obtain ⟨hkeys, hnames⟩ := Bool.and_eq_true_iff.1 hkeeps
    refine Upsert.creates_iff.2 ⟨hfresh.trans hkeys, hrow, fun row hrow => ?_⟩
    rcases List.mem_append.1 hrow with hold | hnew
    · -- a row of another account neither hits nor conflicts
      have hother : row.userID ≠ userID := hrows row hold
      refine ⟨(hhit row).trans (findBySystemKeyOrName_other hother), ?_⟩
      exact decide_eq_false fun h => hother h.1.symm
    · obtain ⟨d, hd, rfl⟩ := List.mem_map.1 hnew
      have hbefore : d ∈ before.map (·.columns) := keptNamed_subset _ hd
      have hdkey : namedKey d ≠ namedKey c.columns :=
        of_decide_eq_true (List.all_eq_true.1 hkeys d hbefore)
      refine ⟨?_, hconflict d hbefore⟩
      rw [hhit, findBySystemKeyOrName_adopt hname hdkey]
      exact decide_eq_false (of_decide_eq_true (List.all_eq_true.1 hnames d hd))
  | false =>
    rw [if_neg (by decide), Option.eq_none_iff_forall_ne_some]
    intro row hcreates
    obtain ⟨hfresh', -, hall⟩ := Upsert.creates_iff.1 hcreates
    have hkeys := hfresh.symm.trans hfresh'
    rw [keeps, hkeys, Bool.true_and] at hkeeps
    obtain ⟨d, hd, hfound⟩ := List.all_eq_false.1 hkeeps
    have hdkey : namedKey d ≠ namedKey c.columns :=
      of_decide_eq_true (List.all_eq_true.1 hkeys d (keptNamed_subset _ hd))
    have hmiss := (hall (adopt userID d) (List.mem_append_right _ (List.mem_map_of_mem hd))).1
    rw [hhit, findBySystemKeyOrName_adopt hname hdkey] at hmiss
    exact hfound (decide_eq_true (of_decide_eq_false hmiss))

/-- The rows after the loop, in an account without rows. -/
theorem run_named (h : NamesAllowed owner (items.map (·.columns)))
    (hrows : ∀ row ∈ rows, row.userID ≠ userID) :
    (namedUpsert userID).run rows items = rows ++ (keptNamed (items.map (·.columns))).map
    (adopt userID) := by
  induction items using List.reverseRecOn with
  | nil => simp [keptNamed]
  | append_singleton items c ih =>
    have hleft : NamesAllowed owner (items.map (·.columns)) := by
      rw [List.map_append] at h
      exact h.left
    rw [Upsert.run_snoc, ih hleft, creates_named h hrows, List.map_append, List.map_cons,
      List.map_nil, keptNamed_snoc]
    split <;> simp

end Run

/-! ## What the old ids are mapped to -/

/-- The table after rows were inserted. -/
def append (table : Table (Named δ)) (new : List (Named δ)) : Table (Named δ) :=
  ⟨table.rows ++ new.zipIdx.map fun c => ⟨table.nextID + c.2, c.1⟩, table.nextID + new.length⟩

/-- The name of the user's row with an id. -/
def linkedName (rows : List (Row (Named δ))) (userID : Nat) (id : Option Nat) : Option String :=
  id.bind fun id => (rows.find? fun row => row.id = id ∧ row.columns.userID = userID).map
    (·.columns.name)

section Append
variable {table : Table (Named δ)} {new : List (Named δ)} {row : Row (Named δ)} {id : Nat}

theorem append_snoc (c : Named δ) : append table (new ++ [c]) =
    ⟨(append table new).rows ++ [⟨(append table new).nextID, c⟩], (append table new).nextID + 1⟩ := by
  simp [append, List.zipIdx_append, Nat.add_assoc]

theorem mem_append (hold : ∀ row ∈ table.rows, row.columns.userID ≠ userID)
    (hrow : row ∈ (append table new).rows) (huser : row.columns.userID = userID) :
    ∃ k, new[k]? = some row.columns ∧ row.id = table.nextID + k := by
  rcases List.mem_append.1 hrow with h | h
  · exact absurd huser (hold row h)
  · obtain ⟨⟨c, k⟩, hk, rfl⟩ := List.mem_map.1 h
    exact ⟨k, List.mk_mem_zipIdx_iff_getElem?.1 hk, rfl⟩

theorem linkedName_append (hold : ∀ row ∈ table.rows, row.columns.userID ≠ userID)
    (hrow : row ∈ (append table new).rows) (huser : row.columns.userID = userID) :
    linkedName (append table new).rows userID (some row.id) = some row.columns.name := by
  rw [linkedName, Option.bind_some]
  cases hfind : (append table new).rows.find? fun r =>
    decide (r.id = row.id ∧ r.columns.userID = userID) with
  | none => exact absurd (decide_eq_true ⟨rfl, huser⟩) (List.find?_eq_none.1 hfind row hrow)
  | some found =>
    have hp := List.find?_some hfind
    obtain ⟨hid, hfound⟩ := decide_eq_true_iff.1 hp
    obtain ⟨k, hk, hkid⟩ := mem_append hold hrow huser
    obtain ⟨n, hn, hnid⟩ := mem_append hold (List.mem_of_find?_eq_some hfind) hfound
    -- An id has one row.
    obtain rfl : n = k := by omega
    rw [hk] at hn
    rw [Option.map_some, Option.some.inj hn]

theorem linkedName_append_mem (hold : ∀ row ∈ table.rows, row.columns.userID ≠ userID)
    {id : Option Nat} {name : String}
    (h : linkedName (append table new).rows userID id = some name) : ∃ c ∈ new, c.name = name := by
  obtain ⟨id, rfl, hname⟩ := Option.bind_eq_some_iff.1 h
  obtain ⟨row, hfind, rfl⟩ := Option.map_eq_some_iff.1 hname
  have hp := List.find?_some hfind
  obtain ⟨k, hk, -⟩ := mem_append hold (List.mem_of_find?_eq_some hfind) (decide_eq_true_iff.1 hp).2
  exact ⟨row.columns, List.mem_of_getElem? hk, rfl⟩

end Append

section Loop
variable {α : Type} {conflict : α → α → Bool} {st : LoopState α χ}

theorem LoopState.link_idMap {sourceID : Nat} (h : sourceID ≠ 0) (id : Nat) :
    (st.link sourceID id).idMap = (sourceID, id) :: st.idMap := by
  rw [LoopState.link, if_pos h]

theorem LoopState.link_lookup {sourceID id k : Nat} (h : k ≠ sourceID) :
    (st.link sourceID id).idMap.lookup k = st.idMap.lookup k := by
  unfold LoopState.link
  split
  · rw [List.lookup_cons, beq_eq_false_iff_ne.2 h]
  · rfl

@[simp] theorem LoopState.count_idMap (result : ImportResult) : (st.count result).idMap = st.idMap := rfl

/-- What an item does to the map: nothing, or its id is mapped, to that of the new row
if there is one. -/
theorem importItem_idMap (item : Prepared α χ) :
    ((importItem true conflict st (.ok item)).idMap = st.idMap ∧
      (importItem true conflict st (.ok item)).table = st.table) ∨
      ∃ id, (importItem true conflict st (.ok item)).idMap = (st.link item.sourceID id).idMap ∧
        ((importItem true conflict st (.ok item)).table = st.table ∨ id = st.table.nextID) := by
  by_cases hseen : item.key ∈ st.seen
  · rw [show importItem true conflict st (.ok item) = st from if_pos (List.contains_iff_mem.2 hseen)]
    exact .inl ⟨rfl, rfl⟩
  cases hfind : item.find st.table.rows with
  | some row =>
    refine .inr ⟨row.id, ?_, .inl (by simp [importItem, hseen, hfind])⟩
    simp only [importItem, LoopState.link]
    simp [hseen, hfind]
    split <;> rfl
  | none =>
    cases hcreate : item.create with
    | error err => exact .inl (by simp [importItem, hseen, hfind, hcreate])
    | ok columns =>
      cases hinsert : st.table.insert conflict columns with
      | none => exact .inl (by simp [importItem, hseen, hfind, hcreate, hinsert])
      | some table =>
        refine .inr ⟨st.table.nextID, ?_, .inr rfl⟩
        simp only [importItem, LoopState.link]
        simp [hseen, hfind, hcreate, hinsert]
        split <;> rfl

end Loop

section Named
variable {what : String} {shown : String → Option (Named δ) → χ} {table : Table (Named δ)}
  {before items : List (Row (Named δ))}
  {c : Row (Named δ)}

/-- The loop over categories or payment methods. -/
def namedState (what : String) (shown : String → Option (Named δ) → χ) (userID : Nat)
    (table : Table (Named δ)) (items : List (Row (Named δ))) : LoopState (Named δ) χ :=
  loopState true (prepareNamed what shown userID) namedConflict table items

/-- The rows after the loop, in an account without rows. -/
theorem namedState_table (h : NamesAllowed owner (items.map (·.columns)))
    (hold : ∀ row ∈ table.rows, row.columns.userID ≠ userID) :
    (namedState what shown userID table items).table =
      append table ((keptNamed (items.map (·.columns))).map (adopt userID)) := by
  induction items using List.reverseRecOn with
  | nil => simp [namedState, loopState, importItems, keptNamed, append]
  | append_singleton items c ih =>
    have hleft : NamesAllowed owner (items.map (·.columns)) := by
      rw [List.map_append] at h
      exact h.left
    have hcolumns : ∀ columns ∈ table.columns, columns.userID ≠ userID := by
      intro columns hcolumns
      obtain ⟨row, hrow, rfl⟩ := List.mem_map.1 hcolumns
      exact hold row hrow
    have hspec : ItemSpec (prepareNamed what shown userID) namedConflict true
        (namedState what shown userID table items) items c
        (namedState what shown userID table (items ++ [c])) := loopState_spec true items c
    have hinserted : inserted (prepareNamed what shown userID) namedConflict true
        (loopState true (prepareNamed what shown userID) namedConflict table items).table items c =
          _ := inserted_true
    rw [itemUpsert_named, run_named hleft hcolumns, creates_named h hcolumns] at hinserted
    rw [hspec.table, namedState, hinserted, List.map_append, List.map_cons, List.map_nil, keptNamed_snoc]
    split
    · rw [List.map_append, List.map_cons, List.map_nil, append_snoc, ← ih hleft]
      rfl
    · exact ih hleft

theorem namedState_idMap (c : Row (Named δ)) (h : trimSpace c.columns.name ≠ "") :
    let st := namedState what shown userID table items
    let st' := namedState what shown userID table (items ++ [c])
    (st'.idMap = st.idMap ∧ st'.table = st.table) ∨
      ∃ id, st'.idMap = (st.link c.id id).idMap ∧ (st'.table = st.table ∨ id = st.table.nextID) := by
  dsimp only
  rw [namedState, loopState_snoc, prepareNamed]
  dsimp only
  rw [if_neg h]
  exact importItem_idMap _

/-- No other id is mapped. -/
theorem namedState_lookup {k : Nat} (h : NamesAllowed owner (items.map (·.columns)))
    (hk : ∀ c ∈ items, c.id ≠ k) : (namedState what shown userID table items).idMap.lookup k = none := by
  induction items using List.reverseRecOn with
  | nil => rfl
  | append_singleton items c ih =>
    rw [List.map_append] at h
    obtain ⟨htrim, hne⟩ := h.trimmed c.columns (by simp)
    have hold := ih h.left fun d hd => hk d (List.mem_append_left _ hd)
    rcases namedState_idMap c (htrim.symm ▸ hne) with ⟨hmap, -⟩ | ⟨id, hmap, -⟩
    · rw [hmap, hold]
    · rw [hmap, LoopState.link_lookup (hk c (by simp)).symm, hold]

theorem kept_snoc (h : NamesAllowed owner ((items ++ [c]).map (·.columns))) {d : Row (Named δ)}
    (hd : d ∈ items) :
    d.columns ∈ keptNamed ((items ++ [c]).map (·.columns)) ↔
    d.columns ∈ keptNamed (items.map (·.columns)) := by
  rw [List.map_append] at h
  have hmem : d.columns ∈ items.map (·.columns) := List.mem_map_of_mem hd
  have hother : d.columns ≠ c.columns := by
    intro heq
    have hconflict := (List.pairwise_append.1 h.distinct).2.2 d.columns hmem c.columns (by simp)
    rw [heq] at hconflict
    exact absurd hconflict (by simp [namedConflict])
  rw [List.map_append, List.map_cons, List.map_nil, keptNamed_snoc]
  split
  · simp [hother]
  · rfl

theorem keeps_snoc (h : NamesAllowed owner ((items ++ [c]).map (·.columns)))
    (hc : c.columns ∈ keptNamed ((items ++ [c]).map (·.columns))) :
    keeps (items.map (·.columns)) (keptNamed (items.map (·.columns))) c.columns = true := by
  rw [List.map_append, List.map_cons, List.map_nil, keptNamed_snoc] at hc
  by_contra hkeeps
  rw [if_neg hkeeps] at hc
  rw [List.map_append] at h
  have hconflict :=
    (List.pairwise_append.1 h.distinct).2.2 c.columns (keptNamed_subset _ hc) c.columns (by simp)
  exact absurd hconflict (by simp [namedConflict])

/-- The id of an item that gets a row is mapped to the id of that row. -/
theorem named_linked (h : NamesAllowed owner (items.map (·.columns)))
    (hids : (items.map (·.id)).Nodup) (hzero : ∀ c ∈ items, c.id ≠ 0)
    (hold : ∀ row ∈ table.rows, row.columns.userID ≠ userID) (hc : c ∈ items)
    (hkept : c.columns ∈ keptNamed (items.map (·.columns))) :
    ∃ id, (namedState what shown userID table items).idMap.lookup c.id = some id ∧
      ⟨id, adopt userID c.columns⟩ ∈ (namedState what shown userID table items).table.rows := by
  induction items using List.reverseRecOn with
  | nil => cases hc
  | append_singleton items i ih =>
    have hleft : NamesAllowed owner (items.map (·.columns)) := by
      rw [List.map_append] at h
      exact h.left
    obtain ⟨htrim, hne⟩ := h.trimmed i.columns (by simp)
    have hmap := @namedState_idMap _ _ userID what shown table items i (htrim.symm ▸ hne)
    have hrows : (namedState what shown userID table (items ++ [i])).table = _ := namedState_table h hold
    rw [List.map_append, List.map_cons, List.map_nil, keptNamed_snoc] at hrows
    rw [List.map_append, List.nodup_append] at hids
    obtain ⟨hidsLeft, -, hidsNew⟩ := hids
    rcases List.mem_append.1 hc with hitems | hlast
    · have hdiffer : c.id ≠ i.id := hidsNew c.id (List.mem_map_of_mem hitems) i.id (by simp)
      obtain ⟨id, hlookup, hmem⟩ :=
        ih hleft hidsLeft (fun d hd => hzero d (List.mem_append_left _ hd)) hitems
          ((kept_snoc h hitems).1 hkept)
      refine ⟨id, ?_, ?_⟩
      · rcases hmap with ⟨hmap, -⟩ | ⟨id', hmap, -⟩
        · rw [hmap, hlookup]
        · rw [hmap, LoopState.link_lookup hdiffer, hlookup]
      · rw [namedState_table hleft hold] at hmem
        rw [hrows]
        split
        · rw [List.map_append, List.map_cons, List.map_nil, append_snoc]
          exact List.mem_append_left _ hmem
        · exact hmem
    · obtain rfl := List.mem_singleton.1 hlast
      rw [if_pos (keeps_snoc h hkept), List.map_append, List.map_cons, List.map_nil, append_snoc,
        ← namedState_table hleft hold] at hrows
      have hnew : (namedState what shown userID table (items ++ [c])).table ≠
          (namedState what shown userID table items).table := by
        intro heq
        have hlength := congrArg (fun t => t.nextID) (hrows.symm.trans heq)
        exact absurd hlength (Nat.succ_ne_self _)
      refine ⟨(namedState what shown userID table items).table.nextID, ?_, by rw [hrows]; simp⟩
      rcases hmap with ⟨-, htable⟩ | ⟨id, hmap, htable | rfl⟩
      · exact absurd htable hnew
      · exact absurd htable hnew
      · rw [hmap, LoopState.link_idMap (hzero c (by simp)), List.lookup_cons, beq_self_eq_true]

theorem linkedName_kept (h : NamesAllowed owner (items.map (·.columns)))
    (hids : (items.map (·.id)).Nodup) (hzero : ∀ c ∈ items, c.id ≠ 0)
    (hold : ∀ row ∈ table.rows, row.columns.userID ≠ userID) (hc : c ∈ items)
    (hkept : c.columns ∈ keptNamed (items.map (·.columns))) :
    linkedName (namedState what shown userID table items).table.rows userID
      ((namedState what shown userID table items).idMap.lookup c.id) = some c.columns.name := by
  obtain ⟨id, hlookup, hmem⟩ : ∃ id,
      (namedState what shown userID table items).idMap.lookup c.id = some id ∧ _ :=
    named_linked h hids hzero hold hc hkept
  rw [namedState_table h hold] at hmem ⊢
  rw [hlookup]
  exact linkedName_append hold hmem rfl

theorem linkedName_mem (h : NamesAllowed owner (items.map (·.columns)))
    (hold : ∀ row ∈ table.rows, row.columns.userID ≠ userID) {id : Option Nat} {name : String}
    (hlinked : linkedName (namedState what shown userID table items).table.rows userID id = some name) :
    ∃ d ∈ keptNamed (items.map (·.columns)), d.name = name := by
  rw [namedState_table h hold] at hlinked
  obtain ⟨row, hrow, hname⟩ := linkedName_append_mem hold hlinked
  obtain ⟨d, hd, rfl⟩ := List.mem_map.1 hrow
  exact ⟨d, hd, hname⟩

/-- A row that is found by name is linked to by its name. -/
theorem linkedName_byName (h : NamesAllowed owner (items.map (·.columns)))
    (hold : ∀ row ∈ table.rows, row.columns.userID ≠ userID) (label : String) :
    let rows := (namedState what shown userID table items).table.rows
    linkedName rows userID
      ((rows.find? fun row => row.columns.userID = userID ∧ sqlLower row.columns.name = label).map
        (·.id)) = none ↔
      ∀ d ∈ keptNamed (items.map (·.columns)), sqlLower d.name ≠ label := by
  dsimp only
  rw [namedState_table h hold]
  cases hfind : (append table ((keptNamed (items.map (·.columns))).map (adopt userID))).rows.find?
    fun row =>
      decide (row.columns.userID = userID ∧ sqlLower row.columns.name = label) with
  | none =>
    refine ⟨fun _ d hd hlabel => ?_, fun _ => rfl⟩
    obtain ⟨k, hk⟩ := List.getElem?_of_mem (List.mem_map_of_mem (f := adopt userID) hd)
    have hmem : ⟨table.nextID + k, adopt userID d⟩ ∈
        (append table ((keptNamed (items.map (·.columns))).map (adopt userID))).rows :=
      List.mem_append_right _
        (List.mem_map.2 ⟨(adopt userID d, k), List.mk_mem_zipIdx_iff_getElem?.2 hk, rfl⟩)
    exact absurd (decide_eq_true ⟨rfl, hlabel⟩) (List.find?_eq_none.1 hfind _ hmem)
  | some row =>
    have hp := List.find?_some hfind
    obtain ⟨huser, hlabel⟩ := decide_eq_true_iff.1 hp
    have hmem := List.mem_of_find?_eq_some hfind
    rw [Option.map_some, linkedName_append hold hmem huser]
    refine ⟨fun h => absurd h (Option.some_ne_none _), fun hall => ?_⟩
    obtain ⟨k, hk, -⟩ := mem_append hold hmem huser
    obtain ⟨d, hd, heq⟩ := List.mem_map.1 (List.mem_of_getElem? hk)
    rw [← heq] at hlabel
    exact absurd hlabel (hall d hd)

end Named

end Kept

end Subdux.ImportService
