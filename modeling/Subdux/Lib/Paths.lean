import Mathlib.Data.List.TakeWhile
/-!
# Slash-separated paths, read lexically

Go's `path` package (and `path/filepath` on Unix). A path leads from the root or
from the current directory up some levels and then down by name: its `Position`.
`clean` renders the position, so two paths clean to one text exactly when they
lead to one place (`clean_eq_iff`), and a path joined below a base leads below
the base (`position_join_names`).
-/

namespace GoPath

def dot : List Char := ['.']

def dotdot : List Char := ['.', '.']

/-- An element that names a directory entry. -/
structure IsName (e : List Char) : Prop where
  nonempty : e ≠ []
  ne_dot : e ≠ dot
  ne_dotdot : e ≠ dotdot
  no_slash : '/' ∉ e

instance (e : List Char) : Decidable (IsName e) :=
  decidable_of_iff (e ≠ [] ∧ e ≠ dot ∧ e ≠ dotdot ∧ '/' ∉ e)
    ⟨fun ⟨h1, h2, h3, h4⟩ => ⟨h1, h2, h3, h4⟩, fun ⟨h1, h2, h3, h4⟩ => ⟨h1, h2, h3, h4⟩⟩

/-- Where a path leads: from the root, or `ups` levels above the current directory, and then down by
name. -/
@[ext]
structure Position where
  rooted : Bool
  ups : Nat
  down : List (List Char)
  grounded : rooted = true → ups = 0
  names : ∀ e ∈ down, IsName e
deriving DecidableEq

/-- The current directory. -/
def here : Position := ⟨false, 0, [], fun _ => rfl, by simp⟩

/-- The root directory. -/
def root : Position := ⟨true, 0, [], fun _ => rfl, by simp⟩

/-- Down to the entry `e`. -/
def Position.enter (pos : Position) (e : List Char) (he : IsName e) : Position where
  rooted := pos.rooted
  ups := pos.ups
  down := pos.down ++ [e]
  grounded := pos.grounded
  names := fun x hx => (List.mem_append.1 hx).elim (pos.names x) fun h => List.mem_singleton.1 h ▸ he

/-- One level up; the root is its own parent. -/
def Position.up (pos : Position) : Position :=
  if pos.down ≠ [] then
    { pos with down := pos.down.dropLast, names := fun x hx => pos.names x (List.dropLast_subset _ hx) }
  else if hroot : pos.rooted = true then pos
  else { pos with ups := pos.ups + 1, grounded := fun h => absurd h hroot }

/-- One element of a path: empty and `.` elements stay, `..` goes up. -/
def Position.walk (pos : Position) (e : List Char) (hslash : '/' ∉ e) : Position :=
  if hstay : e = [] ∨ e = dot then pos
  else if hup : e = dotdot then pos.up
  else pos.enter e ⟨fun h => hstay (.inl h), fun h => hstay (.inr h), hup, hslash⟩

/-- All elements of a path in turn. -/
def Position.follow (pos : Position) : (es : List (List Char)) → (∀ e ∈ es, '/' ∉ e) → Position
  | [], _ => pos
  | e :: es, h => (pos.walk e (h e (by simp))).follow es fun x hx => h x (List.mem_cons_of_mem _ hx)

theorem not_mem_of_mem_splitOn {α : Type} [BEq α] [LawfulBEq α] {a : α} :
    ∀ {l e : List α}, e ∈ l.splitOn a → a ∉ e
  | [], e, h => by
    rw [List.splitOn_nil, List.mem_singleton] at h
    simp [h]
  | x :: l, e, h => by
    have ih : ∀ e' ∈ l.splitOn a, a ∉ e' := fun e' he' => not_mem_of_mem_splitOn he'
    rw [List.splitOn_cons_eq_if_modifyHead] at h
    split at h
    · rcases List.mem_cons.1 h with rfl | h
      · simp
      · exact ih e h
    · rename_i hx
      cases hs : l.splitOn a with
      | nil => simp [hs] at h
      | cons y ys =>
        rw [hs] at h ih
        rcases List.mem_cons.1 h with rfl | h
        · intro ha
          rcases List.mem_cons.1 ha with rfl | ha
          · simp at hx
          · exact ih y (by simp) ha
        · exact ih e (List.mem_cons_of_mem _ h)

/-- The elements of a path, as `strings.Split(p, "/")` gives them. -/
def elements (p : String) : List (List Char) := p.toList.splitOn '/'

theorem elements_no_slash (p : String) : ∀ e ∈ elements p, '/' ∉ e :=
  fun _ he => not_mem_of_mem_splitOn he

def isAbs (p : String) : Bool := p.toList.head? = some '/'

/-- Where the path leads. -/
def position (p : String) : Position :=
  (if isAbs p then root else here).follow (elements p) (elements_no_slash p)

/-- The position's own elements: its `..`s and then its names. -/
def Position.elems (pos : Position) : List (List Char) := List.replicate pos.ups dotdot ++ pos.down

/-- The shortest path that leads to the position. -/
def Position.render (pos : Position) : String :=
  if pos.rooted then String.ofList ('/' :: ['/'].intercalate pos.elems)
  else if pos.elems = [] then "."
  else String.ofList (['/'].intercalate pos.elems)

/-- `path.Clean`. -/
def clean (p : String) : String := (position p).render

/-- `filepath.Join` of two elements. -/
def join (base rel : String) : String :=
  if base ≠ "" then clean (base ++ "/" ++ rel) else if rel ≠ "" then clean rel else ""

/-- How `os.MkdirTemp` puts a name below a directory: without cleaning. -/
def joinPath (dir name : String) : String :=
  if dir.toList.getLast? = some '/' then dir ++ name else dir ++ "/" ++ name

/-- `filepath.Dir`: all but the last element, cleaned. -/
def dir (p : String) : String :=
  clean (String.ofList (['/'].intercalate ((elements p).dropLast ++ [[]])))

/-- `path.Base`: the last element, trailing slashes removed. -/
def base (p : String) : String :=
  if p = "" then "."
  else
    let trimmed := p.toList.reverse.dropWhile (· = '/')
    if trimmed = [] then "/" else String.ofList (trimmed.takeWhile (· ≠ '/')).reverse

/-- `path.Ext`: the last element from its last dot on. -/
def ext (p : String) : String :=
  let last := p.toList.reverse.takeWhile (· ≠ '/')
  if '.' ∈ last then String.ofList ('.' :: (last.takeWhile (· ≠ '.')).reverse) else ""

/-- What is left of two lists after their longest common prefix. -/
def stripCommon : List (List Char) → List (List Char) → List (List Char) × List (List Char)
  | x :: xs, y :: ys => if x = y then stripCommon xs ys else (x :: xs, y :: ys)
  | xs, ys => (xs, ys)

/-- `filepath.Rel`: none where no lexical answer exists. -/
def rel (basepath targpath : String) : Option String :=
  let b := position basepath
  let t := position targpath
  if b = t then some "."
  else if b.rooted ≠ t.rooted then none
  else
    let (up, down) := stripCommon b.elems t.elems
    if up.head? = some dotdot then none
    else some (String.ofList (['/'].intercalate (List.replicate up.length dotdot ++ down)))

/-! ## Following elements -/

/-- Down by several names. -/
def Position.within (pos : Position) (es : List (List Char)) (hes : ∀ e ∈ es, IsName e) : Position where
  rooted := pos.rooted
  ups := pos.ups
  down := pos.down ++ es
  grounded := pos.grounded
  names := fun x hx => (List.mem_append.1 hx).elim (pos.names x) (hes x)

theorem walk_name {pos : Position} {e : List Char} (he : IsName e) (hslash : '/' ∉ e) :
    pos.walk e hslash = pos.enter e he := by
  rw [Position.walk, dif_neg, dif_neg he.ne_dotdot]
  rintro (h | h)
  · exact he.nonempty h
  · exact he.ne_dot h

theorem follow_names :
    ∀ {es : List (List Char)} {pos : Position} (hes : ∀ e ∈ es, IsName e) (hslash : ∀ e ∈ es, '/' ∉ e),
    pos.follow es hslash = pos.within es hes
  | [], pos, _, _ => by
    apply Position.ext
    · rfl
    · rfl
    · exact (List.append_nil _).symm
  | e :: es, pos, hes, hslash => by
    rw [Position.follow, walk_name (hes e (by simp)),
      follow_names (fun x hx => hes x (List.mem_cons_of_mem _ hx))]
    apply Position.ext
    · rfl
    · rfl
    · exact List.append_assoc _ _ _

theorem follow_append : ∀ {xs ys : List (List Char)} {pos : Position} (h : ∀ e ∈ xs ++ ys, '/' ∉ e),
    pos.follow (xs ++ ys) h =
      (pos.follow xs fun e he => h e (List.mem_append_left _ he)).follow ys fun e he =>
        h e (List.mem_append_right _ he)
  | [], _, _, _ => rfl
  | x :: xs, ys, pos, h => by
    show (pos.walk x _).follow (xs ++ ys) _ = _
    rw [follow_append]
    rfl

/-- Going up from the current directory and then down by names. -/
theorem follow_elems : ∀ {n : Nat} {es : List (List Char)} {k : Nat} (hes : ∀ e ∈ es, IsName e)
    (h : ∀ e ∈ List.replicate n dotdot ++ es, '/' ∉ e),
    (⟨false, k, [], by simp, by simp⟩ : Position).follow (List.replicate n dotdot ++ es) h =
      ⟨false, k + n, es, by simp, hes⟩
  | 0, es, k, hes, h => by
    show Position.follow _ es _ = _
    rw [follow_names hes]
    apply Position.ext <;> rfl
  | n + 1, es, k, hes, h => by
    show (Position.walk _ dotdot _).follow (List.replicate n dotdot ++ es) _ = _
    have hup : (⟨false, k, [], by simp, by simp⟩ : Position).walk dotdot (by decide) =
        ⟨false, k + 1, [], by simp, by simp⟩ := rfl
    rw [hup, follow_elems hes]
    apply Position.ext
    · rfl
    · exact Nat.add_right_comm k 1 n
    · rfl

/-! ## A position and the text that leads to it -/

theorem IsName.dotdot_or {e : List Char} (h : e = dotdot ∨ IsName e) : e ≠ [] ∧ '/' ∉ e := by
  rcases h with rfl | h
  · decide
  · exact ⟨h.nonempty, h.no_slash⟩

theorem mem_elems {pos : Position} {e : List Char} (h : e ∈ pos.elems) : e = dotdot ∨ IsName e := by
  rcases List.mem_append.1 h with h | h
  · exact .inl (List.eq_of_mem_replicate h)
  · exact .inr (pos.names e h)

theorem elems_of_rooted {pos : Position} (h : pos.rooted = true) : pos.elems = pos.down := by
  rw [Position.elems, pos.grounded h]
  rfl

theorem head_intercalate {es : List (List Char)} {e : List Char} (he : e ≠ []) :
    (['/'].intercalate (e :: es)).head? = e.head? := by
  obtain ⟨c, cs, rfl⟩ := List.exists_cons_of_ne_nil he
  cases es with
  | nil => simp
  | cons y ys => simp

/-- The elements of the text a position renders to. -/
theorem elements_render (pos : Position) :
    elements pos.render =
      if pos.rooted then [] :: (if pos.down = [] then [[]] else pos.down)
      else if pos.elems = [] then [dot] else pos.elems := by
  have hno : ∀ e ∈ pos.elems, '/' ∉ e := fun e he => (IsName.dotdot_or (mem_elems he)).2
  rw [Position.render, elements]
  split
  · rename_i hrooted
    rw [String.toList_ofList, elems_of_rooted hrooted] at *
    rw [← List.nil_append ('/' :: _), List.splitOn_append_cons_self_of_not_mem (by simp)]
    split
    · rename_i hdown
      simp [hdown]
    · rename_i hdown
      rw [List.splitOn_intercalate '/' (fun e he => (pos.names e he).no_slash) hdown]
  · split
    · decide
    · rename_i hne
      rw [String.toList_ofList, List.splitOn_intercalate '/' hno hne]

theorem isAbs_render (pos : Position) : isAbs pos.render = pos.rooted := by
  rw [isAbs, Position.render]
  split
  · rename_i hrooted
    simp [hrooted]
  · rename_i hrooted
    split
    · simp [hrooted]
    · rename_i hne
      obtain ⟨e, es, heq⟩ := List.exists_cons_of_ne_nil hne
      have he := IsName.dotdot_or (mem_elems (show e ∈ pos.elems from heq ▸ List.mem_cons_self))
      obtain ⟨c, cs, rfl⟩ := List.exists_cons_of_ne_nil he.1
      have hc : c ≠ '/' := fun h => he.2 (by simp [h])
      rw [String.toList_ofList, heq, head_intercalate he.1]
      simp [hc, hrooted]

theorem follow_congr {pos pos' : Position} {xs ys : List (List Char)} {hx : ∀ e ∈ xs, '/' ∉ e}
    (hy : ∀ e ∈ ys, '/' ∉ e) (hpos : pos = pos') (h : xs = ys) :
    pos.follow xs hx = pos'.follow ys hy := by
  subst hpos h
  rfl

/-- Rendering loses nothing: the text of a position leads back to it. -/
theorem position_render (pos : Position) : position pos.render = pos := by
  have helements := elements_render pos
  have habs := isAbs_render pos
  rw [position]
  rcases Bool.eq_false_or_eq_true pos.rooted with hrooted | hrooted
  · rw [if_pos hrooted] at helements
    rw [hrooted] at habs
    have hgrounded := pos.grounded hrooted
    by_cases hdown : pos.down = []
    · rw [if_pos hdown] at helements
      rw [follow_congr (by simp) (if_pos habs) helements]
      apply Position.ext
      · exact hrooted.symm
      · exact hgrounded.symm
      · exact hdown.symm
    · rw [if_neg hdown] at helements
      have hno : ∀ e ∈ [] :: pos.down, '/' ∉ e :=
        List.forall_mem_cons.2 ⟨by simp, fun e he => (pos.names e he).no_slash⟩
      rw [follow_congr hno (if_pos habs) helements]
      show root.follow pos.down _ = pos
      rw [follow_names pos.names]
      apply Position.ext
      · exact hrooted.symm
      · exact hgrounded.symm
      · rfl
  · rw [if_neg (by simp [hrooted])] at helements
    rw [hrooted] at habs
    by_cases helems : pos.elems = []
    · rw [if_pos helems] at helements
      rw [follow_congr (by decide) (if_neg (by simp [habs])) helements]
      obtain ⟨hups, hdown⟩ := List.append_eq_nil_iff.1 helems
      apply Position.ext
      · exact hrooted.symm
      · exact ((List.replicate_eq_nil_iff _).1 hups).symm
      · exact hdown.symm
    · rw [if_neg helems] at helements
      have hno : ∀ e ∈ List.replicate pos.ups dotdot ++ pos.down, '/' ∉ e :=
        fun e he => (IsName.dotdot_or (mem_elems (show e ∈ pos.elems from he))).2
      rw [follow_congr hno (if_neg (by simp [habs])) helements]
      show (⟨false, 0, [], by simp, by simp⟩ : Position).follow _ _ = _
      rw [follow_elems pos.names]
      apply Position.ext
      · exact hrooted.symm
      · exact Nat.zero_add _
      · rfl

theorem position_clean (p : String) : position (clean p) = position p := position_render _

/-- Two paths clean to one text exactly when they lead to one place. -/
theorem clean_eq_iff (p q : String) : clean p = clean q ↔ position p = position q := by
  constructor
  · intro h
    rw [← position_clean p, h, position_clean]
  · intro h
    rw [clean, clean, h]

/-! ## The first element -/

/-- A text starts with the element `e` when it is `e` or goes on with a slash after it. -/
theorem head_elements_iff {p : String} {e : List Char} (he : '/' ∉ e) :
    (elements p).head? = some e ↔ p.toList = e ∨ e ++ ['/'] <+: p.toList := by
  constructor
  · intro h
    obtain ⟨es, hes⟩ := List.head?_eq_some_iff.1 h
    have htext : ['/'].intercalate (e :: es) = p.toList := by
      rw [← hes, elements, List.intercalate_splitOn]
    cases es with
    | nil => exact .inl (by simpa using htext.symm)
    | cons y ys =>
      rw [List.intercalate_cons_cons] at htext
      exact .inr ⟨_, htext⟩
  · rintro (h | ⟨r, h⟩)
    · rw [elements, h, List.splitOn_eq_singleton he]
      rfl
    · rw [elements, ← h, List.append_assoc, List.singleton_append,
        List.splitOn_append_cons_self_of_not_mem he]
      rfl

theorem elements_append (p q : String) : elements (p ++ "/" ++ q) = elements p ++ elements q := by
  have htext : (p ++ "/" ++ q).toList = p.toList ++ '/' :: q.toList := by simp
  rw [elements, htext, List.splitOn_append_cons_self]
  rfl

theorem elements_of_not_rooted {pos : Position} (h : pos.rooted = false) (hne : pos.elems ≠ []) :
    elements pos.render = pos.elems := by
  rw [elements_render, if_neg (by simp [h]), if_neg hne]

/-- The cleaned text starts with `..` exactly when the path leads above the directory it is read from. -/
theorem head_clean_eq_dotdot (p : String) :
    (elements (clean p)).head? = some dotdot ↔ 0 < (position p).ups := by
  rw [clean, elements_render]
  constructor
  · intro h
    split at h
    · simp [dotdot] at h
    · split at h
      · simp [dot, dotdot] at h
      · rename_i helems
        apply Nat.pos_of_ne_zero
        intro hzero
        rw [Position.elems, hzero] at h
        have hmem : dotdot ∈ (position p).down := List.mem_of_head? h
        exact ((position p).names dotdot hmem).ne_dotdot rfl
  · intro h
    obtain ⟨n, hn⟩ := Nat.exists_eq_succ_of_ne_zero (Nat.ne_of_gt h)
    have hrooted : (position p).rooted ≠ true := fun hr => absurd ((position p).grounded hr) (by omega)
    have hcons : (position p).elems = dotdot :: (List.replicate n dotdot ++ (position p).down) := by
      rw [Position.elems, hn, List.replicate_succ]
      rfl
    rw [if_neg hrooted, if_neg (by simp [hcons]), hcons]
    rfl

/-- A name is its own last element. -/
theorem base_name {e : List Char} (he : IsName e) : base (String.ofList e) = String.ofList e := by
  have hchars : ∀ c ∈ e.reverse, c ≠ '/' := fun c hc h => he.no_slash (h ▸ List.mem_reverse.1 hc)
  have hdrop : e.reverse.dropWhile (fun c => decide (c = '/')) = e.reverse := by
    cases hrev : e.reverse with
    | nil => rfl
    | cons c cs => simp [hchars c (by simp [hrev])]
  have htake : e.reverse.takeWhile (fun c => decide (c ≠ '/')) = e.reverse :=
    List.takeWhile_eq_self_iff.2 fun c hc => by simp [hchars c hc]
  have hne : String.ofList e ≠ "" := fun h => he.nonempty (by simpa using congrArg String.toList h)
  have hrev : e.reverse ≠ [] := fun h => he.nonempty (List.reverse_eq_nil_iff.1 h)
  simp only [base, hne, String.toList_ofList, hdrop, htake, hrev, if_false, List.reverse_reverse]

/-! ## Joining -/

theorem isAbs_append {p : String} (hp : p ≠ "") (q : String) : isAbs (p ++ q) = isAbs p := by
  obtain ⟨c, cs, hcs⟩ :=
    List.exists_cons_of_ne_nil (show p.toList ≠ [] from fun h => hp (String.toList_eq_nil_iff.1 h))
  simp [isAbs, hcs]

theorem position_append {p : String} (hp : p ≠ "") (q : String) :
    position (p ++ "/" ++ q) = (position p).follow (elements q) (elements_no_slash q) := by
  have habs : isAbs (p ++ "/" ++ q) = isAbs p := by rw [String.append_assoc, isAbs_append hp]
  have hno : ∀ e ∈ elements p ++ elements q, '/' ∉ e := fun e he =>
    (List.mem_append.1 he).elim (elements_no_slash p e) (elements_no_slash q e)
  rw [position, follow_congr hno (by rw [habs]) (elements_append p q), follow_append]
  rfl

/-- A path of names joined below a base leads below the base. -/
theorem position_join_names {p q : String} (hp : p ≠ "") (hq : ∀ e ∈ elements q, IsName e) :
    position (join p q) = (position p).within (elements q) hq := by
  rw [join, if_pos hp, position_clean, position_append hp, follow_names hq]

/-- Paths of names below one base lead to different places. -/
theorem position_join_inj {base p q : String} (hbase : base ≠ "") (hp : ∀ e ∈ elements p, IsName e)
    (hq : ∀ e ∈ elements q, IsName e) (h : position (join base p) = position (join base q)) : p = q := by
  rw [position_join_names hbase hp, position_join_names hbase hq] at h
  have hdown : (position base).down ++ elements p = (position base).down ++ elements q :=
    congrArg Position.down h
  have helements := List.append_cancel_left hdown
  have hback : ∀ path, ['/'].intercalate (elements path) = path.toList :=
    fun _ => List.intercalate_splitOn '/'
  rw [← String.toList_inj, ← hback p, ← hback q, helements]

theorem slash_not_mem_toString (n : Nat) : '/' ∉ (toString n).toList := by
  intro h
  rw [show toString n = String.ofList (Nat.toDigits 10 n) from rfl, String.toList_ofList] at h
  exact absurd (Nat.isDigit_of_mem_toDigits (by decide) (by decide) h) (by decide)

theorem position_joinPath {p name : String} (hp : p ≠ "") (hname : IsName name.toList) :
    position (joinPath p name) = (position p).enter name.toList hname := by
  have hsingle : elements name = [name.toList] := List.splitOn_eq_singleton hname.no_slash
  rw [joinPath]
  split
  · rename_i hlast
    obtain ⟨q, hq⟩ := List.getLast?_eq_some_iff.1 hlast
    have hbase : elements p = q.splitOn '/' ++ [[]] := by
      rw [elements, hq, List.splitOn_append_cons_self, List.splitOn_nil]
    have helements : elements (p ++ name) = q.splitOn '/' ++ [name.toList] := by
      rw [elements, String.toList_append, hq, List.append_assoc, List.singleton_append,
        List.splitOn_append_cons_self,
        List.splitOn_eq_singleton hname.no_slash]
    have hno : ∀ e ∈ q.splitOn '/' ++ [name.toList], '/' ∉ e := helements ▸ elements_no_slash _
    have hno' : ∀ e ∈ q.splitOn '/' ++ [[]], '/' ∉ e := hbase ▸ elements_no_slash _
    rw [position, follow_congr hno (by rw [isAbs_append hp]) helements, follow_append]
    rw [position, follow_congr hno' rfl hbase, follow_append]
    exact walk_name hname hname.no_slash
  · rw [position_append hp,
      follow_congr (fun e he => List.mem_singleton.1 he ▸ hname.no_slash) rfl hsingle]
    exact walk_name hname hname.no_slash

/-! ## The parent directory -/

/-- A path is absolute when its first element is empty and another follows. -/
theorem isAbs_iff (p : String) : isAbs p = true ↔ ∃ e es, elements p = [] :: e :: es := by
  rw [isAbs, decide_eq_true_eq, elements]
  cases hp : p.toList with
  | nil => simp
  | cons c cs =>
    rw [List.splitOn_cons_eq_if_modifyHead]
    obtain ⟨e, es, hsplit⟩ := List.exists_cons_of_ne_nil (List.splitOn_ne_nil '/' cs)
    by_cases hc : c = '/'
    · simp [hc, hsplit]
    · simp [hc, hsplit]

theorem follow_rooted : ∀ {es : List (List Char)} {pos : Position} (h : ∀ e ∈ es, '/' ∉ e),
    (pos.follow es h).rooted = pos.rooted
  | [], _, _ => rfl
  | e :: es, pos, h => by
    rw [Position.follow, follow_rooted, Position.walk]
    split
    · rfl
    · split
      · rw [Position.up]
        split
        · rfl
        · split <;> rfl
      · rfl

theorem position_rooted (p : String) : (position p).rooted = isAbs p := by
  rw [position, follow_rooted]
  cases isAbs p <;> rfl

/-- A path read element by element. -/
theorem position_of_elements {p : String} {es : List (List Char)} (hes : ∀ e ∈ es, '/' ∉ e)
    (h : elements p = es) {start : Position} (hstart : (if isAbs p then root else here) = start) :
    position p = start.follow es hes :=
  follow_congr hes hstart h

/-- The directory of a rendered position is what the position's last name was entered from. -/
theorem position_dir_render {pos : Position} {names : List (List Char)} {last : List Char}
    (h : pos.down = names ++ [last]) :
    (position (dir pos.render)).rooted = pos.rooted ∧ (position (dir pos.render)).ups = pos.ups ∧
      (position (dir pos.render)).down = names := by
  have hnames : ∀ e ∈ names, IsName e := fun e he => pos.names e (h ▸ List.mem_append_left _ he)
  have hno : ∀ e ∈ (elements pos.render).dropLast ++ [[]], '/' ∉ e := fun e he =>
    (List.mem_append.1 he).elim (fun h => elements_no_slash _ e (List.dropLast_subset _ h)) fun h => by
      rw [List.mem_singleton.1 h]
      simp
  have helements := List.splitOn_intercalate '/' hno (by simp)
  rw [← String.toList_ofList (l := ['/'].intercalate _)] at helements
  rw [dir, position_clean]
  generalize String.ofList (['/'].intercalate ((elements pos.render).dropLast ++ [[]])) = text
    at helements ⊢
  change elements text = _ at helements
  rcases Bool.eq_false_or_eq_true pos.rooted with hrooted | hrooted
  · rw [elements_render, if_pos hrooted, if_neg (by simp [h]), h, ← List.cons_append,
      List.dropLast_concat] at helements
    have habs : isAbs text = true := by
      obtain ⟨e, es, hes⟩ := List.exists_cons_of_ne_nil (show names ++ [[]] ≠ [] by simp)
      exact (isAbs_iff text).2 ⟨e, es, by rw [helements, List.cons_append, hes]⟩
    have hnoslash : ∀ e ∈ [] :: names ++ [[]], '/' ∉ e := helements ▸ elements_no_slash text
    rw [position_of_elements hnoslash helements (if_pos habs), follow_append]
    show (root.follow names _).rooted = _ ∧ (root.follow names _).ups = _ ∧
        (root.follow names _).down = _
    rw [follow_names hnames]
    exact ⟨hrooted.symm, (pos.grounded hrooted).symm, rfl⟩
  · have helems : pos.elems = List.replicate pos.ups dotdot ++ names ++ [last] := by
      rw [Position.elems, h, List.append_assoc]
    rw [elements_render, if_neg (by simp [hrooted]), if_neg (by simp [helems]), helems,
      List.dropLast_concat] at helements
    have habs : ¬ isAbs text = true := by
      intro habs
      obtain ⟨e, es, hes⟩ := (isAbs_iff text).1 habs
      rw [helements] at hes
      cases hfirst : List.replicate pos.ups dotdot ++ names with
      | nil => simp [hfirst] at hes
      | cons x xs =>
        rw [hfirst] at hes
        have hx : x ∈ pos.elems := by
          rw [helems, hfirst]
          exact List.mem_append_left _ (List.mem_cons_self)
        exact (IsName.dotdot_or (mem_elems hx)).1 (List.cons.inj hes).1
    have hnoslash : ∀ e ∈ List.replicate pos.ups dotdot ++ names ++ [[]], '/' ∉ e :=
      helements ▸ elements_no_slash text
    rw [position_of_elements hnoslash helements (if_neg habs), follow_append]
    show ((⟨false, 0, [], by simp, by simp⟩ : Position).follow _ _).rooted = _ ∧
      ((⟨false, 0, [], by simp, by simp⟩ : Position).follow _ _).ups = _ ∧
      ((⟨false, 0, [], by simp, by simp⟩ : Position).follow _ _).down = _
    rw [follow_elems hnames]
    exact ⟨hrooted.symm, Nat.zero_add _, rfl⟩

/-! ## Relative paths -/

theorem stripCommon_append (xs ys : List (List Char)) : stripCommon xs (xs ++ ys) = ([], ys) := by
  induction xs with
  | nil => cases ys <;> rfl
  | cons x xs ih => simp [stripCommon, ih]

/-- Relative to a base, what lies below it is the names below it. -/
theorem rel_within {basepath targpath : String} {es : List (List Char)} {hes : ∀ e ∈ es, IsName e}
    (hne : es ≠ []) (h : position targpath = (position basepath).within es hes) :
    rel basepath targpath = some (String.ofList (['/'].intercalate es)) := by
  have hdiff : position basepath ≠ position targpath := by
    rw [h]
    intro heq
    have hdown := congrArg Position.down heq
    exact hne (List.self_eq_append_right.1 hdown)
  have helems : (position targpath).elems = (position basepath).elems ++ es := by
    rw [h]
    exact (List.append_assoc _ _ _).symm
  have hrooted : (position targpath).rooted = (position basepath).rooted := by rw [h]; rfl
  rw [rel]
  simp only [hdiff, if_false, hrooted, ne_eq, not_true_eq_false, helems, stripCommon_append]
  rfl

end GoPath
