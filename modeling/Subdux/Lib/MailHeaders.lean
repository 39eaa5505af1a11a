import Mathlib.Data.List.TakeWhile
/-!
# Header blocks of mails

Lines that end in CRLF, an empty line, and the body. A reader takes CRLF, a bare LF and, as some
do, a bare CR for the end of a line; it takes folds out and cuts each line at its colon.

`parse_write_iff`: a reader finds the fields that were written exactly when no value has a
character that ends a line. What stands in the body does not matter.
-/

namespace MailHeaders

/-- The character ends a line on its own. -/
def EndsLine (bareCR : Bool) (c : Char) : Prop := c = '\n' ∨ (bareCR = true ∧ c = '\r')

instance (bareCR : Bool) (c : Char) : Decidable (EndsLine bareCR c) :=
  inferInstanceAs (Decidable (_ ∨ _))

/-! ## Reading -/

def cutLines (bareCR : Bool) : List Char → List (List Char)
  | [] => [[]]
  | '\r' :: '\n' :: rest => [] :: cutLines bareCR rest
  | c :: rest =>
    if EndsLine bareCR c then [] :: cutLines bareCR rest else (cutLines bareCR rest).modifyHead (c :: ·)

/-- The line continues the one before. -/
def isFold (l : List Char) : Bool := l.head? = some ' ' || l.head? = some '\t'

/-- The lines with their folds taken out; `line` is the one that is read. -/
def unfoldFrom (line : List Char) : List (List Char) → List (List Char)
  | [] => [line]
  | l :: ls => if isFold l then unfoldFrom (line ++ l) ls else line :: unfoldFrom l ls

def unfoldLines : List (List Char) → List (List Char)
  | [] => []
  | l :: ls => unfoldFrom l ls

/-- The value after the colon and, if there is one, a space. -/
def fieldValue : List Char → List Char
  | ':' :: ' ' :: value => value
  | ':' :: value => value
  | _ => []

def cutField (l : List Char) : List Char × List Char :=
  (l.takeWhile (· ≠ ':'), fieldValue (l.dropWhile (· ≠ ':')))

/-- The fields up to the first empty line. -/
def parse (bareCR : Bool) (message : List Char) : List (List Char × List Char) :=
  (unfoldLines ((cutLines bareCR message).takeWhile (· ≠ []))).map cutField

/-! ## Writing -/

def writeField (f : List Char × List Char) : List Char := f.1 ++ ':' :: ' ' :: f.2

def write (fields : List (List Char × List Char)) (body : List Char) : List Char :=
  fields.flatMap (fun f => writeField f ++ ['\r', '\n']) ++ '\r' :: '\n' :: body

/-- A name of a field: it is not empty and has no space, colon or line end. -/
structure IsName (name : List Char) : Prop where
  nonempty : name ≠ []
  plain : ∀ c ∈ name, c ≠ ' ' ∧ c ≠ '\t' ∧ c ≠ ':' ∧ c ≠ '\n' ∧ c ≠ '\r'

section Lines
variable {bareCR : Bool} {l line rest body name value : List Char} {ls : List (List Char)} {c : Char}

theorem cutLines_cons (h : ¬ EndsLine bareCR c) (hcrlf : c = '\r' → rest.head? ≠ some '\n') :
    cutLines bareCR (c :: rest) = (cutLines bareCR rest).modifyHead (c :: ·) := by
  rw [cutLines]
  · rw [if_neg h]
  · rintro rest' rfl rfl
    exact hcrlf rfl rfl

/-- A line without a line end is read whole. -/
theorem cutLines_line (h : ∀ c ∈ l, ¬ EndsLine bareCR c) :
    cutLines bareCR (l ++ '\r' :: '\n' :: rest) = l :: cutLines bareCR rest := by
  induction l with
  | nil => rw [List.nil_append, cutLines]
  | cons c l ih =>
    rw [List.forall_mem_cons] at h
    rw [List.cons_append, cutLines_cons h.1, ih h.2, List.modifyHead_cons]
    rintro -
    cases l with
    | nil => simp
    | cons d l =>
      intro hd
      exact h.2 d List.mem_cons_self (.inl (Option.some.inj hd))

/-- No line that is read has a line end. -/
theorem cutLines_clean (message : List Char) :
    ∀ l ∈ cutLines bareCR message, ∀ c ∈ l, ¬ EndsLine bareCR c := by
  induction message using cutLines.induct bareCR with
  | case1 => simp [cutLines]
  | case2 rest ih =>
    rw [cutLines]
    exact List.forall_mem_cons.2 ⟨fun c hc => (nomatch hc), ih⟩
  | case3 c rest hcrlf hends ih =>
    rw [cutLines, if_pos hends]
    · exact List.forall_mem_cons.2 ⟨fun c hc => (nomatch hc), ih⟩
    · exact hcrlf
  | case4 c rest hcrlf hends ih =>
    rw [cutLines, if_neg hends]
    · cases hls : cutLines bareCR rest with
      | nil => simp
      | cons l ls =>
        rw [hls, List.forall_mem_cons] at ih
        rw [List.modifyHead_cons, List.forall_mem_cons]
        exact ⟨List.forall_mem_cons.2 ⟨hends, ih.1⟩, ih.2⟩
    · exact hcrlf

/-- Taking folds out adds no character. -/
theorem mem_unfoldFrom {P : Char → Prop} (hline : ∀ c ∈ line, P c) (h : ∀ l ∈ ls, ∀ c ∈ l, P c) :
    ∀ l ∈ unfoldFrom line ls, ∀ c ∈ l, P c := by
  induction ls generalizing line with
  | nil => simpa [unfoldFrom] using hline
  | cons l ls ih =>
    rw [List.forall_mem_cons] at h
    rw [unfoldFrom]
    split
    · exact ih (List.forall_mem_append.2 ⟨hline, h.1⟩) h.2
    · exact List.forall_mem_cons.2 ⟨hline, ih h.1 h.2⟩

theorem unfoldFrom_of_plain (h : ∀ l ∈ ls, isFold l = false) : unfoldFrom line ls = line :: ls := by
  induction ls generalizing line with
  | nil => rfl
  | cons l ls ih =>
    rw [List.forall_mem_cons] at h
    rw [unfoldFrom, h.1, if_neg Bool.false_ne_true, ih h.2]

theorem mem_fieldValue (h : c ∈ fieldValue l) : c ∈ l := by
  unfold fieldValue at h
  split at h
  · exact List.mem_cons_of_mem _ (List.mem_cons_of_mem _ h)
  · exact List.mem_cons_of_mem _ h
  · cases h

/-- The values that are read have no line end. -/
theorem parse_clean (message : List Char) :
    ∀ f ∈ parse bareCR message, ∀ c ∈ f.2, ¬ EndsLine bareCR c := by
  have hblock : ∀ l ∈ (cutLines bareCR message).takeWhile (· ≠ []), ∀ c ∈ l, ¬ EndsLine bareCR c :=
    fun l hl => cutLines_clean message l (List.takeWhile_subset _ hl)
  intro f hf c hc
  obtain ⟨l, hl, rfl⟩ := List.mem_map.1 hf
  have hmem : c ∈ l := List.dropWhile_subset _ (mem_fieldValue hc)
  revert hl hblock
  unfold unfoldLines
  cases (cutLines bareCR message).takeWhile (· ≠ []) with
  | nil =>
    intro _ hl
    cases hl
  | cons line ls =>
    intro hblock hl
    rw [List.forall_mem_cons] at hblock
    exact mem_unfoldFrom hblock.1 hblock.2 l hl c hmem

theorem cutField_writeField (h : IsName name) : cutField (writeField (name, value)) = (name, value) := by
  have hname : ∀ c ∈ name, (decide (c ≠ ':')) = true := fun c hc => decide_eq_true (h.plain c hc).2.2.1
  unfold cutField writeField
  rw [List.takeWhile_append_of_pos hname, List.dropWhile_append_of_pos hname]
  simp [fieldValue]

theorem isFold_writeField (h : IsName name) : isFold (writeField (name, value)) = false := by
  obtain ⟨hne, hplain⟩ := h
  cases name with
  | nil => exact absurd rfl hne
  | cons c name =>
    obtain ⟨hspace, htab, -⟩ := hplain c List.mem_cons_self
    simp [isFold, writeField, hspace, htab]

end Lines

/-! ## What is read of what was written -/

section Write
variable {bareCR : Bool} {fields : List (List Char × List Char)}

theorem writeField_clean {f : List Char × List Char} (hname : IsName f.1)
    (hvalue : ∀ c ∈ f.2, ¬ EndsLine bareCR c) :
    ∀ c ∈ writeField f, ¬ EndsLine bareCR c := by
  have hcolon : ¬ EndsLine bareCR ':' := by simp [EndsLine]
  have hspace : ¬ EndsLine bareCR ' ' := by simp [EndsLine]
  refine List.forall_mem_append.2
    ⟨fun c hc hends => ?_, List.forall_mem_cons.2 ⟨hcolon, List.forall_mem_cons.2 ⟨hspace, hvalue⟩⟩⟩
  obtain ⟨-, -, -, hlf, hcr⟩ := hname.plain c hc
  exact hends.elim hlf fun h => hcr h.2

theorem cutLines_write (h : ∀ f ∈ fields, ∀ c ∈ writeField f, ¬ EndsLine bareCR c) (body : List Char) :
    cutLines bareCR (write fields body) = fields.map writeField ++ [] :: cutLines bareCR body := by
  induction fields with
  | nil => exact cutLines_line (l := []) fun c hc => (nomatch hc)
  | cons f fields ih =>
    rw [List.forall_mem_cons] at h
    have hwrite : write (f :: fields) body = writeField f ++ '\r' :: '\n' :: write fields body := by
      simp [write]
    rw [hwrite, cutLines_line h.1, ih h.2]
    rfl

/-- The fields are read back exactly when no value has a character that ends a line. -/
theorem parse_write_iff (hnames : ∀ f ∈ fields, IsName f.1) (body : List Char) :
    parse bareCR (write fields body) = fields ↔ ∀ f ∈ fields, ∀ c ∈ f.2, ¬ EndsLine bareCR c := by
  constructor
  · intro h
    rw [← h]
    exact parse_clean _
  · intro h
    have hne : ∀ l ∈ fields.map writeField, decide (l ≠ []) = true := by
      intro l hl
      obtain ⟨f, -, rfl⟩ := List.mem_map.1 hl
      simp [writeField]
    have hblock : (cutLines bareCR (write fields body)).takeWhile (· ≠ []) = fields.map writeField := by
      rw [cutLines_write (fun f hf => writeField_clean (hnames f hf) (h f hf)),
        List.takeWhile_append_of_pos hne]
      simp
    have hunfold : unfoldLines (fields.map writeField) = fields.map writeField := by
      have hplain : ∀ l ∈ fields.map writeField, isFold l = false := by
        intro l hl
        obtain ⟨f, hf, rfl⟩ := List.mem_map.1 hl
        exact isFold_writeField (hnames f hf)
      cases hls : fields.map writeField with
      | nil => rfl
      | cons l ls =>
        rw [hls, List.forall_mem_cons] at hplain
        exact unfoldFrom_of_plain hplain.2
    rw [parse, hblock, hunfold, List.map_map]
    exact (List.map_congr_left fun f hf => cutField_writeField (hnames f hf)).trans (List.map_id fields)

end Write

end MailHeaders
