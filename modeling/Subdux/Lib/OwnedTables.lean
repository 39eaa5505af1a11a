import Mathlib.Data.List.Nodup
import Subdux.Lib.Rows
/-!
# Tables whose rows have an owner

Every row has an id, which is handed out once, and an owner. An account sees its own rows and
the ids that were handed out for it. What a statement does to rows of one account, the others
do not see; and what it does and answers is the same on two tables that the account sees alike.
-/

namespace OwnedTables
open Rows

variable {β : Type}

/-- `keys` are the entries of a row in the unique indexes, which are per owner. -/
class HasOwner (β : Type) where
  rowID : β → Nat
  owner : β → Nat
  keys : β → List (String × String)

structure RowTable (β : Type) where
  rows : List β
  /-- The ids that were handed out, with the owner of the row that each was for. -/
  issued : List (Nat × Nat)

namespace RowTable
open HasOwner

variable [HasOwner β]

def own (T : RowTable β) (u : Nat) : List β := T.rows.filter (owner · = u)

def conflicts (T : RowTable β) (row : β) : Bool :=
  T.rows.any fun r => owner r = owner row ∧ rowID r ≠ rowID row ∧ ∃ k ∈ keys r, k ∈ keys row

/-- `INSERT`; the inner `none` is a violated constraint. -/
def insert (users : List Nat) (row : β) (T : RowTable β) : Option (Option (RowTable β)) :=
  if rowID row ∈ T.issued.map (·.1) then none
  else if owner row ∉ users ∨ T.conflicts row then some none
  else some (some ⟨T.rows ++ [row], T.issued ++ [(rowID row, owner row)]⟩)

/-- The row with this id is replaced, or inserted where there is none. -/
def save (users : List Nat) (row : β) (T : RowTable β) : Option (RowTable β) :=
  if T.conflicts row then none
  else if T.rows.any (rowID · = rowID row) then
    some { T with rows := updateWhere (rowID · = rowID row) (fun _ => row) T.rows }
  else if owner row ∈ users then some { T with rows := T.rows ++ [row] }
  else none

def update (p : β → Bool) (f : β → β) (T : RowTable β) : RowTable β :=
  { T with rows := updateWhere p f T.rows }

def delete (p : β → Bool) (T : RowTable β) : RowTable β := { T with rows := T.rows.filter fun r => !p r }

structure OK (users : List Nat) (T : RowTable β) : Prop where
  ids : (T.rows.map rowID).Nodup
  handed : ∀ r ∈ T.rows, (rowID r, owner r) ∈ T.issued
  once : ∀ i u v, (i, u) ∈ T.issued → (i, v) ∈ T.issued → u = v
  owners : ∀ r ∈ T.rows, owner r ∈ users
  unique : ∀ r ∈ T.rows, ∀ r' ∈ T.rows, owner r = owner r' → ∀ k ∈ keys r, k ∈ keys r' →
    rowID r' = rowID r

/-- What account `u` sees of a table: its rows and its ids. The second table has at least the
ids of the first to hand out. -/
structure Sees (u : Nat) (T T' : RowTable β) : Prop where
  rows : T.own u = T'.own u
  issued : ∀ i, (i, u) ∈ T.issued ↔ (i, u) ∈ T'.issued
  room : ∀ i, i ∈ T'.issued.map (·.1) → i ∈ T.issued.map (·.1)

/-- The outcomes of a statement that a constraint may refuse. -/
def SeesResult (u : Nat) : Option (RowTable β) → Option (RowTable β) → Prop
  | some T, some T' => Sees u T T'
  | none, none => True
  | _, _ => False

variable {T T' X : RowTable β} {users users' : List Nat} {row : β} {u v : Nat} {p : β → Bool} {f : β → β}

/-! ### What queries read -/

/-- A condition on rows of one account. -/
theorem decide_own (hp : ∀ r ∈ T.rows, p r = true → owner r = u) {r : β} (hr : r ∈ T.rows) :
    (decide (owner r = u) && p r) = p r := by
  cases hpr : p r with
  | false => simp
  | true => simp [hp r hr hpr]

theorem filter_own (hp : ∀ r ∈ T.rows, p r = true → owner r = u) :
    T.rows.filter p = (T.own u).filter p := by
  rw [own, List.filter_filter]
  refine List.filter_congr fun r hr => ?_
  rw [Bool.and_comm]
  exact (decide_own hp hr).symm

theorem find_own (hp : ∀ r ∈ T.rows, p r = true → owner r = u) : T.rows.find? p = (T.own u).find? p := by
  rw [← List.head?_filter, ← List.head?_filter, filter_own hp]

theorem any_own (hp : ∀ r ∈ T.rows, p r = true → owner r = u) : T.rows.any p = (T.own u).any p := by
  rw [Bool.eq_iff_iff, List.any_eq_true, List.any_eq_true]
  constructor
  · rintro ⟨r, hr, hpr⟩
    exact ⟨r, List.mem_filter.2 ⟨hr, decide_eq_true (hp r hr hpr)⟩, hpr⟩
  · rintro ⟨r, hr, hpr⟩
    exact ⟨r, List.mem_of_mem_filter hr, hpr⟩

theorem conflicts_own (T : RowTable β) (row : β) : T.conflicts row = (T.own (owner row)).any fun r =>
    owner r = owner row ∧ rowID r ≠ rowID row ∧ ∃ k ∈ keys r, k ∈ keys row :=
  any_own fun _ _ hr => (of_decide_eq_true hr).1

theorem Sees.conflicts (h : Sees (owner row) T X) : T.conflicts row = X.conflicts row := by
  rw [conflicts_own, conflicts_own, h.rows]

theorem OK.nil (users : List Nat) : OK users (⟨[], []⟩ : RowTable β) :=
  ⟨List.nodup_nil, by simp, by simp, by simp, by simp⟩

/-- Nobody who is not an owner has rows. -/
theorem OK.own_nil (h : T.OK users) (hu : u ∉ users) : T.own u = [] :=
  List.filter_eq_nil_iff.2 fun r hr howner => hu (of_decide_eq_true howner ▸ h.owners r hr)

/-! ### Updates and deletes -/

theorem own_update (hf : ∀ r, owner (f r) = owner r) : (T.update p f).own u = updateWhere p f
    (T.own u) := by
  rw [own, own, update, updateWhere, updateWhere, List.filter_map]
  congr 1
  apply List.filter_congr
  intro r _
  simp only [Function.comp_apply]
  split
  · rw [hf]
  · rfl

theorem own_delete : (T.delete p).own u = (T.own u).filter fun r => !p r := by
  rw [own, own, delete, List.filter_filter, List.filter_filter]
  congr 1
  funext r
  exact Bool.and_comm ..

theorem OK.update (h : T.OK users) (hid : ∀ r, rowID (f r) = rowID r)
    (howner : ∀ r, owner (f r) = owner r) (hkeys : ∀ r, keys (f r) = keys r) :
    (T.update p f).OK users := by
  have hsame : ∀ x ∈ (T.update p f).rows, ∃ r ∈ T.rows, rowID x = rowID r ∧ owner x = owner r ∧
      keys x = keys r := by
    intro x hx
    rcases mem_updateWhere_cases hx with ⟨hx, -⟩ | ⟨r, hr, -, rfl⟩
    · exact ⟨x, hx, rfl, rfl, rfl⟩
    · exact ⟨r, hr, hid r, howner r, hkeys r⟩
  constructor
  case ids =>
    dsimp only [RowTable.update]
    rw [map_updateWhere rowID hid]
    exact h.ids
  case handed =>
    intro x hx
    obtain ⟨r, hr, hi, ho, -⟩ := hsame x hx
    rw [hi, ho]
    exact h.handed r hr
  case once => exact h.once
  case owners =>
    intro x hx
    obtain ⟨r, hr, -, ho, -⟩ := hsame x hx
    rw [ho]
    exact h.owners r hr
  case unique =>
    intro x hx y hy
    obtain ⟨r, hr, hi, ho, hk⟩ := hsame x hx
    obtain ⟨q, hq, hi', ho', hk'⟩ := hsame y hy
    rw [hi, hi', ho, ho', hk, hk']
    exact h.unique r hr q hq

theorem OK.delete (h : T.OK users) (p : β → Bool) : (T.delete p).OK users where
  ids := h.ids.sublist (List.filter_sublist.map _)
  handed r hr := h.handed r (List.mem_of_mem_filter hr)
  once := h.once
  owners r hr := h.owners r (List.mem_of_mem_filter hr)
  unique r hr r' hr' := h.unique r (List.mem_of_mem_filter hr) r' (List.mem_of_mem_filter hr')

theorem Sees.refl (u : Nat) (T : RowTable β) : Sees u T T := ⟨rfl, fun _ => Iff.rfl, fun _ h => h⟩

/-- A statement on rows of others is not seen. -/
theorem Sees.update_other (h : Sees v T X) (howner : ∀ r, owner (f r) = owner r)
    (hp : ∀ r ∈ T.rows, p r = true → owner r ≠ v) :
    Sees v (T.update p f) X := by
  refine ⟨?_, h.issued, h.room⟩
  rw [own_update howner, ← h.rows]
  refine (List.map_congr_left (g := fun r => r) ?_).trans (List.map_id' _)
  intro r hr
  obtain ⟨hmem, hown⟩ := List.mem_filter.1 hr
  exact if_neg fun hpr => hp r hmem hpr (of_decide_eq_true hown)

theorem Sees.update (h : Sees u T X) (howner : ∀ r, owner (f r) = owner r) : Sees u (T.update p f)
    (X.update p f) :=
  ⟨by rw [own_update howner, own_update howner, h.rows], h.issued, h.room⟩

theorem Sees.delete_other (h : Sees v T X) (hp : ∀ r ∈ T.rows, p r = true → owner r ≠ v) :
    Sees v (T.delete p) X := by
  refine ⟨?_, h.issued, h.room⟩
  rw [own_delete, ← h.rows, List.filter_eq_self]
  intro r hr
  obtain ⟨hmem, hown⟩ := List.mem_filter.1 hr
  cases hpr : p r with
  | false => rfl
  | true => exact absurd (of_decide_eq_true hown) (hp r hmem hpr)

theorem Sees.delete (h : Sees u T X) (p : β → Bool) : Sees u (T.delete p) (X.delete p) :=
  ⟨by rw [own_delete, own_delete, h.rows], h.issued, h.room⟩

/-! ### Inserts -/

theorem insert_cases (h : T.insert users row = some (some T')) :
    rowID row ∉ T.issued.map (·.1) ∧ owner row ∈ users ∧ T.conflicts row = false ∧
      T' = ⟨T.rows ++ [row], T.issued ++ [(rowID row, owner row)]⟩ := by
  unfold insert at h
  split at h
  · cases h
  · rename_i hfresh
    split at h
    · cases h
    · rename_i haccept
      obtain ⟨howner, hconflict⟩ := not_or.1 haccept
      exact ⟨hfresh, not_not.1 howner, by simpa using hconflict,
        (Option.some.inj (Option.some.inj h)).symm⟩

theorem conflicts_false (h : T.conflicts row = false) {r : β} (hr : r ∈ T.rows)
    (howner : owner r = owner row) {k : String × String}
    (hk : k ∈ keys r) (hk' : k ∈ keys row) : rowID r = rowID row := by
  by_contra hne
  have hall := List.any_eq_false.1 h r hr
  exact hall (decide_eq_true ⟨howner, hne, k, hk, hk'⟩)

/-- A row that joins the others, with an rowID of its owner. -/
theorem OK.join (h : T.OK users) (hnew : ∀ r ∈ T.rows, rowID r ≠ rowID row) (howner : owner row ∈ users)
    (hconflict : T.conflicts row = false)
    {issued : List (Nat × Nat)} (hsub : T.issued ⊆ issued) (hin : (rowID row, owner row) ∈ issued)
    (honce : ∀ i u v, (i, u) ∈ issued → (i, v) ∈ issued → u = v) : OK users
    ⟨T.rows ++ [row], issued⟩ := by
  constructor
  case ids =>
    rw [List.map_append, List.nodup_append]
    refine ⟨h.ids, List.nodup_singleton _, ?_⟩
    intro i hi j hj
    obtain ⟨r, hr, rfl⟩ := List.mem_map.1 hi
    obtain rfl : j = rowID row := by simpa using hj
    exact hnew r hr
  case handed =>
    intro r hr
    rcases List.mem_append.1 hr with hr | hr
    · exact hsub (h.handed r hr)
    · rw [List.mem_singleton.1 hr]
      exact hin
  case once => exact honce
  case owners =>
    intro r hr
    rcases List.mem_append.1 hr with hr | hr
    · exact h.owners r hr
    · rw [List.mem_singleton.1 hr]
      exact howner
  case unique =>
    intro r hr r' hr' howners k hk hk'
    rcases List.mem_append.1 hr with hold | hlast
    · rcases List.mem_append.1 hr' with hold' | hlast'
      · exact h.unique r hold r' hold' howners k hk hk'
      · rw [List.mem_singleton.1 hlast'] at howners hk' ⊢
        exact (conflicts_false hconflict hold howners hk hk').symm
    · rw [List.mem_singleton.1 hlast] at howners hk ⊢
      rcases List.mem_append.1 hr' with hold' | hlast'
      · exact conflicts_false hconflict hold' howners.symm hk' hk
      · rw [List.mem_singleton.1 hlast']

theorem OK.insert (h : T.OK users) (hinsert : T.insert users row = some (some T')) : T'.OK users := by
  obtain ⟨hfresh, howner, hconflict, rfl⟩ := insert_cases hinsert
  have hnot : ∀ u, (rowID row, u) ∉ T.issued := fun u hin => hfresh (List.mem_map_of_mem hin)
  refine h.join ?_ howner hconflict (List.subset_append_left _ _) (by simp) ?_
  · intro r hr hid
    exact hnot _ (hid ▸ h.handed r hr)
  · intro i u v hu hv
    rcases List.mem_append.1 hu with hu | hu
    · rcases List.mem_append.1 hv with hv | hv
      · exact h.once i u v hu hv
      · obtain ⟨rfl, rfl⟩ := Prod.mk.inj (List.mem_singleton.1 hv)
        exact absurd hu (hnot u)
    · obtain ⟨rfl, rfl⟩ := Prod.mk.inj (List.mem_singleton.1 hu)
      rcases List.mem_append.1 hv with hv | hv
      · exact absurd hv (hnot v)
      · exact (Prod.mk.inj (List.mem_singleton.1 hv)).2.symm

theorem insert_issued (hinsert : T.insert users row = some (some T')) : T.issued ⊆ T'.issued := by
  obtain ⟨-, -, -, rfl⟩ := insert_cases hinsert
  exact List.subset_append_left _ _

theorem Sees.insert_other (h : Sees v T X) (hinsert : T.insert users row = some (some T'))
    (hv : owner row ≠ v) :
    Sees v T' X := by
  obtain ⟨-, -, -, rfl⟩ := insert_cases hinsert
  refine ⟨?_, fun i => ?_, fun i hi => ?_⟩
  · rw [own, List.filter_append, List.filter_cons_of_neg (by simpa using hv), List.filter_nil,
      List.append_nil]
    exact h.rows
  · rw [← h.issued i, List.mem_append, List.mem_singleton, Prod.mk.injEq]
    refine ⟨fun hin => hin.resolve_right fun hsame => hv hsame.2.symm, .inl⟩
  · rw [List.map_append]
    exact List.mem_append_left _ (h.room i hi)

theorem Sees.insert (h : Sees (owner row) T X) (husers : owner row ∈ users ↔ owner row ∈ users')
    {o : Option (RowTable β)} (hinsert : T.insert users row = some o) :
    ∃ o', X.insert users' row = some o' ∧ SeesResult (owner row) o o' := by
  unfold RowTable.insert at hinsert ⊢
  split at hinsert
  · cases hinsert
  · rename_i hfresh
    rw [if_neg fun hin => hfresh (h.room _ hin), ← h.conflicts]
    simp only [← husers]
    split at hinsert
    · rename_i hrefused
      rw [if_pos hrefused]
      obtain rfl := Option.some.inj hinsert
      exact ⟨none, rfl, trivial⟩
    · rename_i haccepted
      rw [if_neg haccepted]
      obtain rfl := Option.some.inj hinsert
      refine ⟨_, rfl, ?_, fun i => ?_, fun i hi => ?_⟩
      · have hrows := h.rows
        rw [own, own] at hrows ⊢
        rw [List.filter_append, List.filter_append, hrows]
      · rw [List.mem_append, List.mem_append, h.issued i]
      · rw [List.map_append, List.mem_append] at hi ⊢
        exact hi.imp (h.room i) fun hin => hin

/-! ### Saving a row that was read -/

theorem save_cases (h : T.save users row = some T') : T.conflicts row = false ∧
    (T' = { T with rows := updateWhere (rowID · = rowID row) (fun _ => row) T.rows } ∧
      (∃ r ∈ T.rows, rowID r = rowID row) ∨
      T' = { T with rows := T.rows ++ [row] } ∧ (∀ r ∈ T.rows, rowID r ≠ rowID row) ∧
        owner row ∈ users) := by
  unfold save at h
  split at h
  · cases h
  · rename_i hconflict
    refine ⟨by simpa using hconflict, ?_⟩
    split at h
    · rename_i hany
      left
      refine ⟨(Option.some.inj h).symm, ?_⟩
      simpa using hany
    · rename_i hany
      split at h
      · rename_i howner
        right
        exact ⟨(Option.some.inj h).symm, by simpa using hany, howner⟩
      · cases h

/-- The row with this id is of the owner it was handed to. -/
theorem OK.owner_eq (h : T.OK users) (hfact : (rowID row, u) ∈ T.issued) {r : β} (hr : r ∈ T.rows)
    (hid : rowID r = rowID row) : owner r = u :=
  h.once _ _ _ (h.handed r hr) (hid ▸ hfact)

/-- Whether a row with this id exists is for its owner to see. -/
theorem OK.any_id (h : T.OK users) {i : Nat} (hfact : (i, u) ∈ T.issued) :
    T.rows.any (rowID · = i) = (T.own u).any (rowID · = i) :=
  any_own fun r hr hid => h.once _ _ _ (h.handed r hr) (of_decide_eq_true hid ▸ hfact)

theorem OK.save (h : T.OK users) (hfact : (rowID row, owner row) ∈ T.issued)
    (hsave : T.save users row = some T') :
    T'.OK users := by
  obtain ⟨hconflict, ⟨rfl, r₀, hr₀, hid₀⟩ | ⟨rfl, hnew, howner⟩⟩ := save_cases hsave
  · have hcases : ∀ x ∈ updateWhere (rowID · = rowID row) (fun _ => row) T.rows,
        (x ∈ T.rows ∧ rowID x ≠ rowID row) ∨ x = row := by
      intro x hx
      rcases mem_updateWhere_cases hx with ⟨hx, hid⟩ | ⟨r, -, -, rfl⟩
      · exact .inl ⟨hx, by simpa using hid⟩
      · exact .inr rfl
    constructor
    case ids =>
      have hmap : (updateWhere (rowID · = rowID row) (fun _ => row) T.rows).map rowID =
          T.rows.map rowID := by
        rw [updateWhere, List.map_map]
        apply List.map_congr_left
        intro r _
        simp only [Function.comp_apply, decide_eq_true_eq]
        split
        · exact Eq.symm ‹_›
        · rfl
      dsimp only
      rw [hmap]
      exact h.ids
    case handed =>
      intro x hx
      rcases hcases x hx with ⟨hx, -⟩ | rfl
      · exact h.handed x hx
      · exact hfact
    case once => exact h.once
    case owners =>
      intro x hx
      rcases hcases x hx with ⟨hx, -⟩ | rfl
      · exact h.owners x hx
      · rw [← h.owner_eq hfact hr₀ hid₀]
        exact h.owners r₀ hr₀
    case unique =>
      intro x hx y hy howners k hk hk'
      rcases hcases x hx with ⟨hold, -⟩ | hrow
      · rcases hcases y hy with ⟨hold', -⟩ | hrow'
        · exact h.unique x hold y hold' howners k hk hk'
        · rw [hrow'] at howners hk' ⊢
          exact (conflicts_false hconflict hold howners hk hk').symm
      · rw [hrow] at howners hk ⊢
        rcases hcases y hy with ⟨hold', -⟩ | hrow'
        · exact conflicts_false hconflict hold' howners.symm hk' hk
        · rw [hrow']
  · exact h.join hnew howner hconflict (List.Subset.refl _) hfact h.once

theorem save_issued (hsave : T.save users row = some T') : T'.issued = T.issued := by
  obtain ⟨-, ⟨rfl, -⟩ | ⟨rfl, -⟩⟩ := save_cases hsave <;> rfl

theorem Sees.save_other (h : Sees v T X) (hT : T.OK users) (hfact : (rowID row, owner row) ∈ T.issued)
    (hsave : T.save users row = some T')
    (hv : owner row ≠ v) : Sees v T' X := by
  refine ⟨?_, by rw [save_issued hsave]; exact h.issued, by rw [save_issued hsave]; exact h.room⟩
  rw [← h.rows]
  obtain ⟨-, ⟨rfl, -⟩ | ⟨rfl, -⟩⟩ := save_cases hsave
  · rw [own, own, updateWhere, List.filter_map]
    have hfilter : T.rows.filter
        ((fun r => decide (owner r = v)) ∘ fun r => if decide (rowID r = rowID row) then row else r) =
        T.rows.filter fun r => decide (owner r = v) := by
      apply List.filter_congr
      intro r hr
      simp only [Function.comp_apply, decide_eq_true_eq]
      split
      · rename_i hid
        rw [hT.owner_eq hfact hr hid]
      · rfl
    rw [hfilter]
    refine (List.map_congr_left (g := fun r => r) ?_).trans (List.map_id' _)
    intro r hr
    obtain ⟨hmem, hown⟩ := List.mem_filter.1 hr
    refine if_neg fun hid => hv ?_
    rw [← hT.owner_eq hfact hmem (of_decide_eq_true hid)]
    exact of_decide_eq_true hown
  · rw [own, List.filter_append, List.filter_cons_of_neg (by simpa using hv), List.filter_nil,
      List.append_nil]
    rfl

theorem Sees.save (h : Sees (owner row) T X) (hT : T.OK users) (hX : X.OK users')
    (hfact : (rowID row, owner row) ∈ T.issued) (husers : owner row ∈ users ↔ owner row ∈ users') :
    SeesResult (owner row) (T.save users row) (X.save users' row) := by
  have hfact' : (rowID row, owner row) ∈ X.issued := (h.issued _).1 hfact
  have hupdate : ∀ {Y : RowTable β} {ys : List Nat}, Y.OK ys → (rowID row, owner row) ∈ Y.issued →
      (updateWhere (rowID · = rowID row) (fun _ => row) Y.rows).filter
        (fun r => decide (owner r = owner row)) =
        updateWhere (rowID · = rowID row) (fun _ => row) (Y.own (owner row)) := by
    intro Y ys hY hin
    rw [own, updateWhere, updateWhere, List.filter_map]
    congr 1
    apply List.filter_congr
    intro r hr
    simp only [Function.comp_apply, decide_eq_true_eq]
    split
    · rename_i hid
      rw [hY.owner_eq hin hr hid]
    · rfl
  unfold RowTable.save
  rw [← h.conflicts, hT.any_id hfact, hX.any_id hfact', h.rows]
  simp only [← husers]
  split
  · trivial
  · split
    · refine ⟨?_, h.issued, h.room⟩
      rw [own, own, hupdate hT hfact, hupdate hX hfact', h.rows]
    · split
      · refine ⟨?_, h.issued, h.room⟩
        have hrows := h.rows
        rw [own, own] at hrows ⊢
        rw [List.filter_append, List.filter_append, hrows]
      · trivial

end RowTable

end OwnedTables
