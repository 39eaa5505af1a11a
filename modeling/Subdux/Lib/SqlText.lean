import Mathlib.Data.List.Infix
/-!
# SQLite's `LIKE`

In a pattern `%` stands for any text and `_` for any one character; letters of
ASCII match in either case. A text that contains the words between two `%` matches
(`like_infix`), whatever the words' own underscores stand for.
-/

namespace SqlText

/-- `text LIKE pattern`. -/
def like : List Char → List Char → Bool
  | [], text => text.isEmpty
  | c :: pattern, text =>
    if c = '%' then text.tails.any (like pattern)
    else
      match text with
      | [] => false
      | d :: rest => (c = '_' || c.toLower = d.toLower) && like pattern rest

theorem like_percent (text : List Char) : like ['%'] text = true := by
  have hempty : [] ∈ text.tails := (List.mem_tails _ _).2 List.nil_suffix
  simp only [like, if_true]
  exact List.any_eq_true.2 ⟨[], hempty, rfl⟩

/-- Words match themselves. -/
theorem like_append {words : List Char} (h : '%' ∉ words) (pattern text : List Char) :
    like (words ++ pattern) (words ++ text) = like pattern text := by
  induction words with
  | nil => rfl
  | cons c words ih =>
    have hc : c ≠ '%' := fun heq => h (by simp [heq])
    have hrest : '%' ∉ words := fun hmem => h (List.mem_cons_of_mem _ hmem)
    simp [like, hc, ih hrest]

theorem like_infix {words : List Char} (h : '%' ∉ words) (pre post : List Char) :
    like ('%' :: (words ++ ['%'])) (pre ++ words ++ post) = true := by
  have htail : words ++ post ∈ (pre ++ words ++ post).tails := by
    rw [List.mem_tails, List.append_assoc]
    exact List.suffix_append _ _
  simp only [like, if_true]
  refine List.any_eq_true.2 ⟨words ++ post, htail, ?_⟩
  rw [like_append h]
  exact like_percent post

end SqlText
