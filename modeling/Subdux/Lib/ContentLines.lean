import Mathlib.Algebra.GroupWithZero.Nat
import Mathlib.Data.List.Basic
/-!
# Content lines

Text of lines that end in CRLF, where a line that would be too long is folded: cut,
with CRLF and a space at each cut. `foldFrom` folds as a writer does, one character
at a time; `unfolded` takes the folds out again. `lines_foldFrom` bounds the physical
lines, `unfolded_foldFrom` says that folding loses nothing, and `lines_encode` that
cutting the octets at CRLF cuts the characters, so that no cut splits a character.

`escape` and `unescape` are those of a text value.
-/

namespace ContentLines

/-! ## Lines -/

section Lines
variable {α : Type*} [DecidableEq α] (cr lf : α)

/-- A list cut at each `cr`, `lf`. -/
def splitAt : List α → List (List α)
  | [] => [[]]
  | [c] => [[c]]
  | c :: d :: rest =>
    if c = cr ∧ d = lf then [] :: splitAt rest
    else (splitAt (d :: rest)).modifyHead (c :: ·)

variable {cr lf}

theorem splitAt_ne_nil (xs : List α) : splitAt cr lf xs ≠ [] := by
  induction xs using splitAt.induct cr lf with
  | case1 => simp [splitAt]
  | case2 => simp [splitAt]
  | case3 c d rest h => simp [splitAt, h]
  | case4 c d rest h ih => simpa [splitAt, h] using ih

theorem splitAt_cons {c : α} (hc : c ≠ cr) (xs : List α) :
    splitAt cr lf (c :: xs) = (splitAt cr lf xs).modifyHead (c :: ·) := by
  cases xs with
  | nil => rfl
  | cons d rest => simp [splitAt, hc]

/-- A line without `cr` is cut off whole. -/
theorem splitAt_append {l : List α} (h : cr ∉ l) (rest : List α) :
    splitAt cr lf (l ++ cr :: lf :: rest) = l :: splitAt cr lf rest := by
  induction l with
  | nil => simp [splitAt]
  | cons c l ih =>
    simp only [List.mem_cons, not_or] at h
    rw [List.cons_append, splitAt_cons (Ne.symm h.1), ih h.2, List.modifyHead_cons]

theorem splitAt_of_notMem {l : List α} (h : cr ∉ l) (xs : List α) :
    splitAt cr lf (l ++ xs) = (splitAt cr lf xs).modifyHead (l ++ ·) := by
  induction l with
  | nil =>
    cases hxs : splitAt cr lf xs with
    | nil => exact absurd hxs (splitAt_ne_nil xs)
    | cons p ps => simp [hxs]
  | cons c l ih =>
    simp only [List.mem_cons, not_or] at h
    rw [List.cons_append, splitAt_cons (Ne.symm h.1), ih h.2, List.modifyHead_modifyHead]
    rfl

end Lines

/-! ## Folding -/

def octets (cs : List Char) : Nat := (cs.map Char.utf8Size).sum

/-- The lines of a text. -/
def lines (cs : List Char) : List (List Char) := splitAt '\r' '\n' cs

/-- The characters of a line after `used` octets of it, folded at `max` octets. -/
def foldFrom (max used : Nat) : List Char → List Char
  | [] => []
  | c :: cs =>
    if used + c.utf8Size > max then '\r' :: '\n' :: ' ' :: c :: foldFrom max (1 + c.utf8Size) cs
    else c :: foldFrom max (used + c.utf8Size) cs

/-- A text with its folds taken out. -/
def unfolded : List Char → List Char
  | '\r' :: '\n' :: ' ' :: cs => unfolded cs
  | c :: cs => c :: unfolded cs
  | [] => []

section Folding
variable {c : Char} {cs l rest : List Char} {max used : Nat}

theorem unfolded_cons (hc : c ≠ '\r') (cs : List Char) : unfolded (c :: cs) = c :: unfolded cs := by
  rw [unfolded]
  intro ds h _
  exact hc h

/-- The end of a line is no fold when the next line does not begin with a space. -/
theorem unfolded_crlf (h : rest.head? ≠ some ' ') :
    unfolded ('\r' :: '\n' :: rest) = '\r' :: '\n' :: unfolded rest := by
  rw [unfolded, unfolded_cons (by decide)]
  intro ds _ hds
  obtain rfl : rest = ' ' :: ds := (List.cons.inj hds).2
  exact h rfl

/-- Folding a line loses nothing. -/
theorem unfolded_foldFrom (h : '\r' ∉ l) (used : Nat) (rest : List Char) :
    unfolded (foldFrom max used l ++ rest) = l ++ unfolded rest := by
  induction l generalizing used with
  | nil => rfl
  | cons c l ih =>
    simp only [List.mem_cons, not_or] at h
    have hc := Ne.symm h.1
    rw [foldFrom]
    split
    · simp only [List.cons_append, unfolded, unfolded_cons hc, ih h.2]
    · simp only [List.cons_append, unfolded_cons hc, ih h.2]

/-- The physical lines of a folded line: what is left of the current one, and the
ones that follow it. -/
theorem lines_foldFrom (h : '\r' ∉ l) (hmax : 5 ≤ max) (hused : used ≤ max) (rest : List Char) :
    ∃ p ps, lines (foldFrom max used l ++ '\r' :: '\n' :: rest) = p :: ps ++ lines rest ∧
      used + octets p ≤ max ∧ ∀ q ∈ ps, octets q ≤ max := by
  induction l generalizing used with
  | nil => exact ⟨[], [], by simp [foldFrom, lines, splitAt], by simpa [octets] using hused, by simp⟩
  | cons c l ih =>
    simp only [List.mem_cons, not_or] at h
    have hc := Ne.symm h.1
    have hsize : c.utf8Size ≤ 4 := c.utf8Size_le_four
    rw [foldFrom]
    split
    · -- The line is cut before `c`, which begins the next one after a space.
      obtain ⟨p, ps, hlines, hp, hps⟩ := ih h.2 (show 1 + c.utf8Size ≤ max by omega)
      refine ⟨[], (' ' :: c :: p) :: ps, ?_, by simpa [octets] using hused, ?_⟩
      · rw [lines] at hlines
        rw [List.cons_append, List.cons_append, lines, splitAt, if_pos ⟨rfl, rfl⟩, List.cons_append,
          splitAt_cons (by decide), List.cons_append, splitAt_cons hc, hlines]
        rfl
      · intro q hq
        rcases List.mem_cons.1 hq with rfl | hq
        · have hspace : (' ' : Char).utf8Size = 1 := by decide
          simp only [octets, List.map_cons, List.sum_cons, hspace] at hp ⊢
          omega
        · exact hps q hq
    · obtain ⟨p, ps, hlines, hp, hps⟩ := ih h.2 (show used + c.utf8Size ≤ max by omega)
      refine ⟨c :: p, ps, ?_, ?_, hps⟩
      · rw [lines] at hlines
        simp only [List.cons_append, lines, splitAt_cons hc, hlines, List.modifyHead_cons]
      · simp only [octets, List.map_cons, List.sum_cons] at hp ⊢
        omega

end Folding

/-! ## Writing lines -/

/-- A line folded at `max` octets. -/
def fold (max : Nat) (l : List Char) : List Char := if octets l ≤ max then l else foldFrom max 0 l

/-- Each line folded and ended. -/
def write (max : Nat) (ls : List (List Char)) : List Char :=
  ls.flatMap fun l => fold max l ++ ['\r', '\n']

/-- A line that can be written: it holds no carriage return and does not look like
the rest of another line. -/
structure Clean (l : List Char) : Prop where
  no_cr : '\r' ∉ l
  head : l.head? ≠ some ' '

section Write
variable {l : List Char} {ls : List (List Char)} {max : Nat}

theorem write_cons (max : Nat) (l : List Char) (ls : List (List Char)) :
    write max (l :: ls) = fold max l ++ '\r' :: '\n' :: write max ls := by
  simp [write]

theorem write_append (max : Nat) (ls ms : List (List Char)) :
    write max (ls ++ ms) = write max ls ++ write max ms :=
  List.flatMap_append

theorem head_fold (hmax : 4 ≤ max) (l : List Char) : (fold max l).head? = l.head? := by
  unfold fold
  split
  · rfl
  · cases l with
    | nil => rfl
    | cons c l =>
      have : c.utf8Size ≤ 4 := c.utf8Size_le_four
      rw [foldFrom, if_neg (by omega)]
      rfl

theorem unfolded_fold (h : '\r' ∉ l) (max : Nat) (rest : List Char) :
    unfolded (fold max l ++ rest) = l ++ unfolded rest := by
  unfold fold
  split
  · induction l with
    | nil => rfl
    | cons c l ih =>
      simp only [octets, List.map_cons, List.sum_cons, List.mem_cons, not_or] at *
      rw [List.cons_append, unfolded_cons (Ne.symm h.1), ih h.2 (by omega), List.cons_append]
  · exact unfolded_foldFrom h 0 rest

theorem head_write (hmax : 4 ≤ max) (h : ∀ l ∈ ls, Clean l) : (write max ls).head? ≠ some ' ' := by
  cases ls with
  | nil => simp [write]
  | cons l ls =>
    rw [write_cons, List.head?_append, head_fold hmax]
    have := (h l (by simp)).head
    cases hl : l.head? with
    | none => simp
    | some c => simpa [hl] using this

/-- Unfolding and cutting gives back the lines that were written. -/
theorem lines_unfolded_write (hmax : 4 ≤ max) (h : ∀ l ∈ ls, Clean l) :
    lines (unfolded (write max ls)) = ls ++ [[]] := by
  induction ls with
  | nil => rfl
  | cons l ls ih =>
    have hl := h l (by simp)
    have hls : ∀ m ∈ ls, Clean m := fun m hm => h m (by simp [hm])
    rw [write_cons, unfolded_fold hl.no_cr, unfolded_crlf (head_write hmax hls), lines,
      splitAt_append hl.no_cr]
    exact congrArg (l :: ·) (ih hls)

/-- No physical line is longer than `max` octets. -/
theorem octets_lines_write (hmax : 5 ≤ max) (h : ∀ l ∈ ls, Clean l) :
    ∀ p ∈ lines (write max ls), octets p ≤ max := by
  induction ls with
  | nil => simp [write, lines, splitAt, octets]
  | cons l ls ih =>
    have hl := h l (by simp)
    have hls := ih fun m hm => h m (by simp [hm])
    rw [write_cons, fold]
    split
    · rename_i hshort
      rw [lines, splitAt_append hl.no_cr]
      exact List.forall_mem_cons.2 ⟨hshort, hls⟩
    · obtain ⟨p, ps, hlines, hp, hps⟩ := lines_foldFrom hl.no_cr hmax (Nat.zero_le max) (write max ls)
      rw [hlines]
      intro q hq
      rcases List.mem_append.1 hq with hq | hq
      · rcases List.mem_cons.1 hq with rfl | hq
        · omega
        · exact hps q hq
      · exact hls q hq

end Write

/-! ## Octets -/

/-- The UTF-8 octets of a text. -/
def encode (cs : List Char) : List UInt8 := cs.flatMap String.utf8EncodeChar

theorem length_encode (cs : List Char) : (encode cs).length = octets cs := by
  simp [encode, octets, List.length_flatMap]

/-- An octet below 128 belongs to one character alone. -/
theorem mem_encodeChar {c : Char} {b : UInt8} (hb : b.toNat < 128) (h : b ∈ String.utf8EncodeChar c) :
    c.val.toNat = b.toNat := by
  simp only [String.utf8EncodeChar] at h
  generalize c.val.toNat = v at h
  split_ifs at h <;> simp only
    [List.mem_cons, List.not_mem_nil, or_false, ← UInt8.toNat_inj, UInt8.toNat_ofNat'] at h <;>
    omega

theorem notMem_encodeChar {c : Char} (hc : c ≠ '\r') : (13 : UInt8) ∉ String.utf8EncodeChar c := fun h =>
  hc (Char.ext (UInt32.toNat_inj.1 (mem_encodeChar (by decide) h)))

theorem encode_cons (c : Char) (cs : List Char) :
    encode (c :: cs) = String.utf8EncodeChar c ++ encode cs := rfl

theorem map_encode_modifyHead (c : Char) (ls : List (List Char)) :
    (ls.modifyHead (c :: ·)).map encode = (ls.map encode).modifyHead (String.utf8EncodeChar c ++ ·) := by
  cases ls <;> rfl

/-- Cutting the octets cuts the characters. -/
theorem lines_encode (cs : List Char) : splitAt 13 10 (encode cs) = (lines cs).map encode := by
  unfold lines
  induction cs using splitAt.induct '\r' '\n' with
  | case1 => rfl
  | case2 c =>
    by_cases hc : c = '\r'
    · subst hc
      rfl
    · simpa [encode, splitAt]
        using (splitAt_of_notMem (notMem_encodeChar hc) [] : splitAt 13 (10 : UInt8) _ = _)
  | case3 c d rest h ih =>
    obtain ⟨rfl, rfl⟩ := h
    rw [splitAt, if_pos ⟨rfl, rfl⟩, List.map_cons, ← ih]
    rfl
  | case4 c d rest h ih =>
    rw [splitAt, if_neg h, map_encode_modifyHead, ← ih, encode_cons]
    by_cases hc : c = '\r'
    · -- A carriage return on its own: the next octet is no line feed.
      subst hc
      have hd : d ≠ '\n' := fun hd => h ⟨rfl, hd⟩
      obtain ⟨b, bs, hbs⟩ := List.exists_cons_of_ne_nil (String.utf8EncodeChar_ne_nil (c := d))
      have hb : b ≠ 10 := by
        rintro rfl
        exact hd (Char.ext (UInt32.toNat_inj.1 (mem_encodeChar (b := 10) (by decide) (by simp [hbs]))))
      rw [show String.utf8EncodeChar '\r' = [13] by decide, encode_cons, hbs, List.cons_append,
        List.cons_append, List.nil_append,
        splitAt, if_neg fun h => hb h.2]
      rfl
    · exact splitAt_of_notMem (notMem_encodeChar hc) _

/-! ## Text values -/

/-- A text value with its special characters escaped, and carriage returns left out. -/
def escapeChar : Char → List Char
  | '\\' => ['\\', '\\']
  | ';' => ['\\', ';']
  | ',' => ['\\', ',']
  | '\n' => ['\\', 'n']
  | '\r' => []
  | c => [c]

def escape (cs : List Char) : List Char := cs.flatMap escapeChar

/-- The text that an escaped value stands for. -/
def unescape : List Char → List Char
  | '\\' :: c :: cs => (if c = 'n' ∨ c = 'N' then '\n' else c) :: unescape cs
  | c :: cs => c :: unescape cs
  | [] => []

section Text
variable {c : Char} {cs : List Char}

theorem unescape_cons (hc : c ≠ '\\') (cs : List Char) : unescape (c :: cs) = c :: unescape cs := by
  rw [unescape]
  intro d ds h _
  exact hc h

theorem escape_no_cr (cs : List Char) : '\r' ∉ escape cs := by
  simp only [escape, List.mem_flatMap, not_exists, not_and]
  intro c _
  unfold escapeChar
  split
  case h_6 _ _ _ _ _ hcr => simpa using Ne.symm hcr
  all_goals decide

/-- Escaping loses the carriage returns and nothing else. -/
theorem unescape_escape (cs : List Char) : unescape (escape cs) = cs.filter (· ≠ '\r') := by
  induction cs with
  | nil => rfl
  | cons c cs ih =>
    rw [show escape (c :: cs) = escapeChar c ++ escape cs from rfl]
    unfold escapeChar
    split
    · simp [unescape, ih]
    · simp [unescape, ih]
    · simp [unescape, ih]
    · simp [unescape, ih]
    · simp [ih]
    · rename_i hback _ _ _ hcr
      have hkeep : decide (c ≠ '\r') = true := decide_eq_true hcr
      rw [List.singleton_append, unescape_cons hback, ih]
      exact (List.filter_cons_of_pos (p := fun d => decide (d ≠ '\r')) hkeep).symm

end Text

end ContentLines
