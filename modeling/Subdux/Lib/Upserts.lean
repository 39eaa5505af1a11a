import Mathlib.Data.List.Induction
/-!
# Loops that insert what is missing

A loop over items that have keys. An item whose key came before is passed over. The
first of a key looks for a row it matches (`hit`) and is inserted when there is none,
unless it has no row of its own (its checks fail) or a unique index refuses that row
(`conflict`). A dry run only marks the items that match none of the rows it began with.

`creates_run_iff_inserts` says which items are inserted, `agree_iff` when a dry run marks
exactly these, and `creates_run_iff` what the loop inserts when it is run again on its own
result. They say it of the items and the rows before the loop.
-/

namespace Upserts

structure Upsert (ι κ ρ : Type*) where
  key : ι → Option κ
  valid : ι → Bool
  row : ι → Option ρ
  hit : ι → ρ → Bool
  conflict : ρ → ρ → Bool

namespace Upsert
variable {ι κ ρ : Type*} [DecidableEq κ] (U : Upsert ι κ ρ)

/-- The keys that came before. -/
def seen (before : List ι) : List κ := before.filterMap U.key

/-- A valid item that is the first of its key. -/
def fresh (before : List ι) (i : ι) : Bool := U.valid i && (U.key i).any (· ∉ U.seen before)

/-- What a dry run that began with `rows` marks. -/
def marks (rows : List ρ) (before : List ι) (i : ι) : Bool := U.fresh before i && !rows.any (U.hit i)

/-- What the loop inserts when it comes to `i` with `rows`. -/
def creates (rows : List ρ) (before : List ι) (i : ι) : Option ρ :=
  if U.marks rows before i then (U.row i).filter fun r => !rows.any (U.conflict r) else none

def step (s : List ι × List ρ) (i : ι) : List ι × List ρ :=
  (s.1 ++ [i], s.2 ++ (U.creates s.2 s.1 i).toList)

/-- The rows after the loop. -/
def run (rows : List ρ) (items : List ι) : List ρ := (items.foldl U.step ([], rows)).2

section Run
variable {U} {rows rows' : List ρ} {items before after : List ι} {i j : ι} {r s : ρ}

theorem valid_of_fresh (h : U.fresh before i = true) : U.valid i = true := (Bool.and_eq_true_iff.1 h).1

theorem marks_iff :
    U.marks rows before i = true ↔ U.fresh before i = true ∧ ∀ r ∈ rows, U.hit i r = false := by
  simp [marks]

theorem creates_iff : U.creates rows before i = some r ↔
    U.fresh before i = true ∧ U.row i = some r ∧ ∀ s ∈ rows, U.hit i s = false ∧
    U.conflict r s = false := by
  simp only [creates, Option.ite_none_right_eq_some, marks_iff, Option.filter_eq_some_iff,
    Bool.not_eq_true',
    List.any_eq_false, Bool.not_eq_true]
  constructor
  · rintro ⟨⟨hfresh, hhit⟩, hrow, hconflict⟩
    exact ⟨hfresh, hrow, fun s hs => ⟨hhit s hs, hconflict s hs⟩⟩
  · rintro ⟨hfresh, hrow, h⟩
    exact ⟨⟨hfresh, fun s hs => (h s hs).1⟩, hrow, fun s hs => (h s hs).2⟩

theorem marks_of_creates (h : U.creates rows before i = some r) : U.marks rows before i = true := by
  obtain ⟨hfresh, -, hrows⟩ := creates_iff.1 h
  exact marks_iff.2 ⟨hfresh, fun s hs => (hrows s hs).1⟩

/-- Fewer rows refuse no more. -/
theorem creates_mono (hsub : rows ⊆ rows') (h : U.creates rows' before i = some r) :
    U.creates rows before i = some r := by
  obtain ⟨hfresh, hrow, hrows⟩ := creates_iff.1 h
  exact creates_iff.2 ⟨hfresh, hrow, fun s hs => hrows s (hsub hs)⟩

theorem foldl_step_fst (s : List ι × List ρ) : (items.foldl U.step s).1 = s.1 ++ items := by
  induction items generalizing s with
  | nil => simp
  | cons i items ih => rw [List.foldl_cons, ih, step, List.append_assoc, List.singleton_append]

@[simp] theorem run_nil : U.run rows [] = rows := rfl

theorem run_snoc :
    U.run rows (before ++ [i]) = U.run rows before ++
    (U.creates (U.run rows before) before i).toList := by
  rw [run, List.foldl_append, List.foldl_cons, List.foldl_nil, step, foldl_step_fst, List.nil_append]
  rfl

/-- The loop only appends. -/
theorem run_extends : U.run rows before <+: U.run rows (before ++ after) := by
  induction after using List.reverseRecOn with
  | nil => simp
  | append_singleton after i ih =>
    rw [← List.append_assoc, run_snoc]
    exact ih.trans (List.prefix_append _ _)

theorem subset_run : rows ⊆ U.run rows items := by
  have hextends : U.run rows [] <+: U.run rows ([] ++ items) := run_extends
  exact hextends.subset

theorem row_mem_run (h : U.creates (U.run rows before) before i = some r) :
    r ∈ U.run rows (before ++ i :: after) := by
  have hmem : r ∈ U.run rows (before ++ [i]) := by
    rw [run_snoc, h]
    exact List.mem_append_right _ List.mem_cons_self
  rw [← List.singleton_append, ← List.append_assoc]
  exact run_extends.subset hmem

/-- The rows of the items that are the first of their key and match none of `rows`. -/
def missing (U : Upsert ι κ ρ) (rows : List ρ) : List ι → List ι → List ρ
  | _, [] => []
  | before, i :: items => (U.creates rows before i).toList ++ U.missing rows (before ++ [i]) items

theorem row_of_missing (h : r ∈ U.missing rows before items) : ∃ i ∈ items, U.row i = some r := by
  induction items generalizing before with
  | nil => cases h
  | cons i items ih =>
    rcases List.mem_append.1 h with h | h
    · exact ⟨i, List.mem_cons_self, (creates_iff.1 (Option.mem_toList.1 h)).2.1⟩
    · obtain ⟨j, hj, hrow⟩ := ih h
      exact ⟨j, List.mem_cons_of_mem i hj, hrow⟩

/-- The loop adds no rows but the missing ones. -/
theorem countP_run_le (p : ρ → Bool) :
    (U.run rows items).countP p ≤ rows.countP p + (U.missing rows [] items).countP p := by
  have hfold : ∀ (before : List ι) (current : List ρ), rows ⊆ current →
      (items.foldl U.step (before, current)).2.countP p ≤ current.countP p +
        (U.missing rows before items).countP p := by
    induction items with
    | nil => exact fun _ _ _ => Nat.le_add_right _ _
    | cons i items ih =>
      intro before current hsub
      have hrest := ih (before ++ [i]) (current ++ (U.creates current before i).toList)
        (List.Subset.trans hsub (List.subset_append_left _ _))
      rw [List.foldl_cons, missing, List.countP_append]
      rw [List.countP_append] at hrest
      have hone : (U.creates current before i).toList.countP p ≤
          (U.creates rows before i).toList.countP p := by
        cases hcreates : U.creates current before i with
        | none => exact Nat.zero_le _
        | some r => exact Nat.le_of_eq (by rw [creates_mono hsub hcreates])
      simp only [step]
      omega
  exact hfold [] rows (List.Subset.refl rows)

/-- A row after the loop was there before, or is that of an inserted item. -/
theorem mem_run (h : r ∈ U.run rows items) :
    r ∈ rows ∨ ∃ before i after, items = before ++ i :: after ∧
    U.creates (U.run rows before) before i = some r := by
  induction items using List.reverseRecOn with
  | nil => exact .inl h
  | append_singleton items i ih =>
    rw [run_snoc] at h
    rcases List.mem_append.1 h with hr | hr
    · rcases ih hr with hr | ⟨before, j, after, rfl, hj⟩
      · exact .inl hr
      · exact .inr ⟨before, j, after ++ [i], by simp, hj⟩
    · exact .inr ⟨items, i, [], rfl, Option.mem_toList.1 hr⟩

/-! ## What is inserted -/

/-- `i` is inserted when it comes after `before`, of which `kept` were inserted: it is the
first of its key, and no row stands in the way of its own, be it one of `rows` or that of
an item in `kept`. -/
def admits (U : Upsert ι κ ρ) (rows : List ρ) (kept before : List ι) (i : ι) : Bool :=
  (U.creates rows before i).any fun r => kept.all fun j => (U.row j).all fun s =>
    !U.hit i s && !U.conflict r s

/-- The items that are inserted. -/
def kept (U : Upsert ι κ ρ) (rows : List ρ) (items : List ι) : List ι :=
  (items.foldl (fun s i => (s.1 ++ [i], s.2 ++ if U.admits rows s.2 s.1 i then [i] else []))
    (([], []) : List ι × List ι)).2

def inserts (U : Upsert ι κ ρ) (rows : List ρ) (before : List ι) (i : ι) : Bool :=
  U.admits rows (U.kept rows before) before i

theorem kept_snoc : U.kept rows (before ++ [i]) = U.kept rows before ++ if U.inserts rows before i
    then [i] else [] := by
  have hfst : ∀ (s : List ι × List ι), (before.foldl (fun s i =>
      (s.1 ++ [i], s.2 ++ if U.admits rows s.2 s.1 i then [i] else [])) s).1 = s.1 ++ before := by
    induction before with
    | nil => simp
    | cons i before ih =>
      intro s
      rw [List.foldl_cons, ih, List.append_assoc, List.singleton_append]
  rw [kept, List.foldl_append, List.foldl_cons, List.foldl_nil]
  simp only [hfst, List.nil_append]
  rfl

theorem inserts_iff : U.inserts rows before i = true ↔
    ∃ r, U.creates rows before i = some r ∧
      ∀ s ∈ (U.kept rows before).filterMap U.row, U.hit i s = false ∧ U.conflict r s = false := by
  simp only [inserts, admits, Option.any_eq_true, List.all_eq_true, Option.all_eq_true,
    Bool.and_eq_true, Bool.not_eq_true',
    List.mem_filterMap, forall_exists_index, and_imp]
  constructor
  · rintro ⟨r, hr, h⟩
    exact ⟨r, hr, fun s j hj hs => h j hj s hs⟩
  · rintro ⟨r, hr, h⟩
    exact ⟨r, hr, fun j hj s hs => h s j hj hs⟩

/-- The loop adds the rows of these items. -/
theorem run_eq_kept (items : List ι) :
    U.run rows items = rows ++ (U.kept rows items).filterMap U.row := by
  induction items using List.reverseRecOn with
  | nil => simp [kept]
  | append_singleton before i ih =>
    rw [run_snoc, kept_snoc, ih, List.append_assoc, List.filterMap_append]
    congr 2
    cases hcreates : U.creates (rows ++ (U.kept rows before).filterMap U.row) before i with
    | some r =>
      obtain ⟨hfresh, hrow, hrows⟩ := creates_iff.1 hcreates
      have hinserts : U.inserts rows before i = true :=
        inserts_iff.2 ⟨r, creates_iff.2 ⟨hfresh, hrow, fun s hs => hrows s (List.mem_append_left _ hs)⟩,
          fun s hs => hrows s (List.mem_append_right _ hs)⟩
      rw [if_pos hinserts]
      simp [hrow]
    | none =>
      rw [if_neg, Option.toList_none, List.filterMap_nil]
      intro hinserts
      obtain ⟨r, hr, hkept⟩ := inserts_iff.1 hinserts
      obtain ⟨hfresh, hrow, hrows⟩ := creates_iff.1 hr
      have hsome : U.creates (rows ++ (U.kept rows before).filterMap U.row) before i = some r :=
        creates_iff.2 ⟨hfresh, hrow, fun s hs => (List.mem_append.1 hs).elim (hrows s) (hkept s)⟩
      simp [hsome] at hcreates

/-- An item is inserted into the rows as they are when the loop comes to it. -/
theorem creates_run_iff_inserts :
    U.creates (U.run rows before) before i = some r ↔ U.inserts rows before i = true ∧
    U.row i = some r := by
  rw [run_eq_kept]
  constructor
  · intro h
    obtain ⟨hfresh, hrow, hrows⟩ := creates_iff.1 h
    exact ⟨inserts_iff.2
      ⟨r, creates_iff.2 ⟨hfresh, hrow, fun s hs => hrows s (List.mem_append_left _ hs)⟩,
      fun s hs => hrows s (List.mem_append_right _ hs)⟩, hrow⟩
  · rintro ⟨hinserts, hrow⟩
    obtain ⟨r', hr', hkept⟩ := inserts_iff.1 hinserts
    obtain ⟨hfresh, hrow', hrows⟩ := creates_iff.1 hr'
    obtain rfl := Option.some.inj (hrow.symm.trans hrow')
    exact creates_iff.2 ⟨hfresh, hrow, fun s hs => (List.mem_append.1 hs).elim (hrows s) (hkept s)⟩

theorem creates_run_eq_none_iff :
    U.creates (U.run rows before) before i = none ↔ U.inserts rows before i = false := by
  rw [← Bool.not_eq_true, Option.eq_none_iff_forall_ne_some]
  constructor
  · intro h hinserts
    obtain ⟨r, hr, -⟩ := inserts_iff.1 hinserts
    exact h r (creates_run_iff_inserts.2 ⟨hinserts, (creates_iff.1 hr).2.1⟩)
  · intro h r hr
    exact h (creates_run_iff_inserts.1 hr).1

theorem mem_kept_iff :
    i ∈ U.kept rows items ↔ ∃ before after, items = before ++ i :: after ∧
    U.inserts rows before i = true := by
  induction items using List.reverseRecOn with
  | nil => simp [kept]
  | append_singleton items j ih =>
    rw [kept_snoc, List.mem_append, ih]
    constructor
    · rintro (⟨before, after, rfl, h⟩ | h)
      · exact ⟨before, after ++ [j], by simp, h⟩
      · split_ifs at h with hinserts
        · obtain rfl := List.mem_singleton.1 h
          exact ⟨items, [], rfl, hinserts⟩
        · cases h
    · rintro ⟨before, after, hsplit, h⟩
      rcases List.eq_nil_or_concat after with rfl | ⟨after, k, rfl⟩
      · obtain ⟨rfl, hj⟩ := List.append_inj' hsplit rfl
        obtain rfl := List.singleton_inj.1 hj
        rw [if_pos h]
        exact .inr List.mem_cons_self
      · rw [List.concat_eq_append, ← List.cons_append, ← List.append_assoc] at hsplit
        exact .inl ⟨before, after, (List.append_inj' hsplit rfl).1, h⟩

/-! ## Dry runs -/

/-- Every marked item has a row, which clashes neither with a row nor with that of a
marked item before it. -/
def Clear (U : Upsert ι κ ρ) (rows : List ρ) (items : List ι) : Prop :=
  ∀ before i after, items = before ++ i :: after → U.marks rows before i = true →
    ∃ r, U.row i = some r ∧ (∀ s ∈ rows, U.conflict r s = false) ∧
      ∀ before' j after', before = before' ++ j :: after' → U.marks rows before' j = true →
        ∀ s, U.row j = some s → U.hit i s = false ∧ U.conflict r s = false

/-- A dry run marks exactly what the loop inserts, if and only if `Clear`. -/
theorem agree_iff :
    (∀ before i after, items = before ++ i :: after →
      (U.marks rows before i = true ↔ (U.creates (U.run rows before) before i).isSome)) ↔
        U.Clear rows items := by
  constructor
  · intro h before i after hitems hmarks
    obtain ⟨r, hr⟩ := Option.isSome_iff_exists.1 ((h before i after hitems).1 hmarks)
    obtain ⟨-, hrow, hrows⟩ := creates_iff.1 hr
    refine ⟨r, hrow, fun s hs => (hrows s (subset_run hs)).2, ?_⟩
    rintro before' j after' rfl hj s hs
    have hsplit : items = before' ++ j :: (after' ++ i :: after) := by simp [hitems]
    obtain ⟨s', hs'⟩ := Option.isSome_iff_exists.1 ((h before' j _ hsplit).1 hj)
    obtain rfl : s' = s := Option.some.inj ((creates_iff.1 hs').2.1.symm.trans hs)
    exact hrows _ (row_mem_run hs')
  · intro h before i after hitems
    constructor
    · intro hmarks
      obtain ⟨r, hrow, hconflict, hearlier⟩ := h before i after hitems hmarks
      obtain ⟨hfresh, hhit⟩ := marks_iff.1 hmarks
      rw [Option.isSome_iff_exists]
      refine ⟨r, creates_iff.2 ⟨hfresh, hrow, fun s hs => ?_⟩⟩
      rcases mem_run hs with hs | ⟨before', j, after', hbefore, hcreates⟩
      · exact ⟨hhit s hs, hconflict s hs⟩
      · exact hearlier before' j after' hbefore (marks_of_creates (creates_mono subset_run hcreates)) s
          (creates_iff.1 hcreates).2.1
    · intro hcreates
      obtain ⟨r, hr⟩ := Option.isSome_iff_exists.1 hcreates
      exact marks_of_creates (creates_mono subset_run hr)

/-! ## Running the loop again -/

/-- The row of an item stands in the way of another insertion of it. -/
def settles (U : Upsert ι κ ρ) (i : ι) : Bool := (U.row i).any fun r => U.hit i r || U.conflict r r

omit [DecidableEq κ] in
theorem settles_of_hit (hrow : U.row i = some r) (h : U.hit i r = true) : U.settles i = true := by
  rw [settles, hrow, Option.any_some, h, Bool.true_or]

omit [DecidableEq κ] in
theorem settles_of_conflict (hrow : U.row i = some r) (h : U.conflict r r = true) :
    U.settles i = true := by
  rw [settles, hrow, Option.any_some, h, Bool.or_true]

theorem run_between (h : U.run rows (before ++ after) = rows) : U.run rows before = rows := by
  have hstart : U.run rows [] <+: U.run rows ([] ++ before) := run_extends
  have hend : U.run rows before <+: U.run rows (before ++ after) := run_extends
  rw [h] at hend
  exact hend.eq_of_length_le hstart.length_le

/-- A loop changes nothing if and only if it would insert nothing into the rows it began with. -/
theorem run_eq_self_iff :
    U.run rows items = rows ↔ ∀ before i after, items = before ++ i :: after →
    U.creates rows before i = none := by
  constructor
  · rintro h before i after rfl
    -- What the rows are in between lies between `rows` and `rows`.
    have hbefore : U.run rows before = rows := run_between h
    rw [← List.singleton_append, ← List.append_assoc] at h
    have hnext : U.run rows (before ++ [i]) = rows := run_between h
    rw [run_snoc, hbefore, List.append_right_eq_self, Option.toList_eq_nil_iff] at hnext
    exact hnext
  · intro h
    induction items using List.reverseRecOn with
    | nil => rfl
    | append_singleton items i ih =>
      have hitems : U.run rows items = rows :=
        ih fun before j after hsplit => h before j (after ++ [i]) (by simp [hsplit])
      rw [run_snoc, hitems, h items i [] rfl, Option.toList_none, List.append_nil]

/-- What is inserted again settles nothing, and matched no row at the start. -/
theorem creates_run_iff (hfree : ∀ i r, U.valid i = true → U.row i = some r → U.settles i = false →
      ∀ j s, U.row j = some s →
      U.hit i s = false ∧ U.conflict r s = false)
    (hitems : items = before ++ i :: after) :
    U.creates (U.run rows items) before i = some r ↔ U.settles i = false ∧
    U.creates rows before i = some r := by
  constructor
  · intro hcreates
    refine ⟨?_, creates_mono subset_run hcreates⟩
    have hfirst : U.creates (U.run rows before) before i = some r := by
      refine creates_mono ?_ hcreates
      rw [hitems]
      exact run_extends.subset
    -- Its own row is among the rows now.
    have hown := (creates_iff.1 hcreates).2.2 r (by rw [hitems]; exact row_mem_run hfirst)
    rw [settles, (creates_iff.1 hcreates).2.1, Option.any_some, hown.1, hown.2]
    rfl
  · rintro ⟨hsettles, hcreates⟩
    obtain ⟨hfresh, hrow, hrows⟩ := creates_iff.1 hcreates
    refine creates_iff.2 ⟨hfresh, hrow, fun s hs => ?_⟩
    rcases mem_run hs with hs | ⟨_, j, _, _, hj⟩
    · exact hrows s hs
    · exact hfree i r (valid_of_fresh hfresh) hrow hsettles j s (creates_iff.1 hj).2.1

end Run

end Upsert

end Upserts
