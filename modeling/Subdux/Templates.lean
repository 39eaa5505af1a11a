import Subdux.Lib.Results
import Subdux.Lib.Substrings
import Subdux.Scheduler
/-!
# Notification templates

`internal/service/template_validation.go` and `template_renderer.go`. A template is a
`Template`: literals and placeholders by turns. `nextAction_some_iff` says what one round
of the parser reads, `template_language` what the validator accepts and what the renderer
makes of it. Positions count characters where the code counts bytes; the delimiters are
ASCII, so the slices are the same.
-/

namespace Subdux.Templates
open GoStrings Results Substrings

/-! ## The validator -/

def maxTemplateLength : Nat := 2000

def allowedTemplateVariables : List String := [
  "SubscriptionName", "BillingDate", "Amount", "Currency", "DaysUntil", "EventType", "RenewalMode",
    "Status", "Category",
  "PaymentMethod", "URL", "Remark", "UserEmail"]

inductive TemplateError where
  | emptyTemplate
  | tooLong (length : Nat)
  | unexpectedClosing
  | unclosedAction
  | emptyAction
  | unsupportedDirective (action : String)
  | emptyPlaceholder
  | unsupportedPlaceholder (action : String)
  | renderedTooLong
  deriving DecidableEq

structure TemplateActionToken where
  start : Nat
  stop : Nat
  variableName : String
  deriving DecidableEq

def openBrace : Char := '\x7b'
def closeBrace : Char := '\x7d'

def openDelimiter : List Char := [openBrace, openBrace]
def closeDelimiter : List Char := [closeBrace, closeBrace]

def parseTemplateVariable (action : String) : Except TemplateError String :=
  if action = "" then .error .emptyAction
  else if action.toList.head? ≠ some '.' then .error (.unsupportedDirective action)
  else if action.toList.any (· ∈ [' ', '\t', '\r', '\n', '|', '(', ')']) then
    .error (.unsupportedDirective action)
  else
    let varName := String.ofList (action.toList.drop 1)
    if varName = "" then .error .emptyPlaceholder
    else if varName ∉ allowedTemplateVariables then .error (.unsupportedPlaceholder action)
    else .ok varName

/-- A round of the loop: where the next action opens, how long it is and what it names. -/
def nextAction (rest : List Char) : Except TemplateError (Option (Nat × Nat × String)) :=
  let openOffset := indexOf openDelimiter rest
  let closeOffset := indexOf closeDelimiter rest
  if closeOffset.any fun c => openOffset.all fun o => c < o then .error .unexpectedClosing
  else
    match openOffset with
    | none => .ok none
    | some o =>
      match indexOf closeDelimiter (rest.drop (o + 2)) with
      | none => .error .unclosedAction
      | some a =>
        (parseTemplateVariable (trimSpace (String.ofList ((rest.drop (o + 2)).take a)))).map
          fun varName => some (o, a, varName)

/-- The loop from `idx` on. Every round moves `idx`, so that the length is fuel enough. -/
def parseLoop (tmpl : List Char) : Nat → Nat → Except TemplateError (List TemplateActionToken)
  | 0, _ => .ok []
  | fuel + 1, idx =>
    if idx < tmpl.length then
      match nextAction (tmpl.drop idx) with
      | .error err => .error err
      | .ok none => .ok []
      | .ok (some (o, a, varName)) =>
        let start := idx + o
        let stop := start + 2 + a + 2
        (parseLoop tmpl fuel stop).map fun tokens => ⟨start, stop, varName⟩ :: tokens
    else .ok []

def parseTemplateActions (tmplStr : String) : Except TemplateError (List TemplateActionToken) :=
  parseLoop tmplStr.toList tmplStr.toList.length 0

def validateTemplate (tmplStr : String) : Except TemplateError Unit :=
  if tmplStr.utf8ByteSize = 0 then .error .emptyTemplate
  else if maxTemplateLength < tmplStr.utf8ByteSize then .error (.tooLong tmplStr.utf8ByteSize)
  else (parseTemplateActions tmplStr).map fun _ => ()

/-! ## The renderer -/

def maxRenderedLength : Nat := 4000

/-- `strconv.FormatFloat(amount, 'f', -1, 64)`: the shortest digits that read back as the amount. -/
def formatFloat (amount : Binary64) : String :=
  let (n, last) := Binary64.shortest amount.magnitude
  let places := (-last).toNat
  let digits := n * 10 ^ last.toNat
  let fraction := (zeroPadded places (digits % 10 ^ places : Nat)).toList.rdropWhile (· = '0')
  (if amount.negative then "-" else "") ++ (digits / 10 ^ places).repr ++
    if fraction = [] then "" else "." ++ String.ofList fraction

example : [1999 / 100, -5 / 4, 30, 1 / 100000, 0].map (fun q => formatFloat (Binary64.ofValue q)) =
    ["19.99", "-1.25", "30", "0.00001", "0"] := by
  decide +kernel

def templateValues (data : TemplateData) : List (String × String) := [
  ("SubscriptionName", data.subscriptionName),
  ("BillingDate", data.billingDate),
  ("Amount", formatFloat data.amount),
  ("Currency", data.currency),
  ("DaysUntil", toString data.daysUntil),
  ("EventType", data.eventType),
  ("RenewalMode", data.renewalMode),
  ("Status", data.status),
  ("Category", data.category),
  ("PaymentMethod", data.paymentMethod),
  ("URL", data.url),
  ("Remark", data.remark),
  ("UserEmail", data.userEmail)]

/-- `values[token.variable]`. -/
def templateValue (data : TemplateData) (varName : String) : String :=
  ((templateValues data).lookup varName).getD ""

/-- The loop that writes the output, from `last` on. -/
def writeTokens (tmpl : List Char) (value : String → String) : List TemplateActionToken → Nat → List Char
  | [], last => tmpl.drop last
  | token :: tokens, last =>
    (tmpl.drop last).take (token.start - last) ++ (value token.variableName).toList ++
      writeTokens tmpl value tokens token.stop

def renderTemplate (tmplStr : String) (data : TemplateData) : Except TemplateError String :=
  match parseTemplateActions tmplStr with
  | .error err => .error err
  | .ok tokens =>
    let output := String.ofList (writeTokens tmplStr.toList (templateValue data) tokens 0)
    if maxRenderedLength < output.utf8ByteSize then .error .renderedTooLong else .ok output

/-! ## The language -/

/-- Text without a delimiter. -/
@[ext]
structure Literal where
  chars : List Char
  noOpening : ¬ openDelimiter <:+: chars
  noClosing : ¬ closeDelimiter <:+: chars

/-- A variable between delimiters, with white space around it. -/
@[ext]
structure Placeholder where
  left : List Char
  variableName : String
  right : List Char
  left_space : ∀ c ∈ left, isSpace c = true
  right_space : ∀ c ∈ right, isSpace c = true
  allowed : variableName ∈ allowedTemplateVariables

/-- Literals and placeholders by turns. -/
inductive Template where
  | last (literal : Literal)
  | placed (literal : Literal) (placeholder : Placeholder) (rest : Template)

def Placeholder.inner (p : Placeholder) : List Char := p.left ++ '.' :: p.variableName.toList ++ p.right

def Placeholder.text (p : Placeholder) : List Char := openDelimiter ++ p.inner ++ closeDelimiter

namespace Template

def text : Template → List Char
  | last literal => literal.chars
  | placed literal placeholder rest => literal.chars ++ placeholder.text ++ rest.text

/-- No literal before a placeholder ends in an opening brace. -/
def Clean : Template → Prop
  | last _ => True
  | placed literal _ rest => literal.chars.getLast? ≠ some openBrace ∧ rest.Clean

/-- The tokens of a template that starts at `idx`. -/
def tokens : Template → Nat → List TemplateActionToken
  | last _, _ => []
  | placed literal placeholder rest, idx =>
    let stop := idx + literal.chars.length + placeholder.text.length
    ⟨idx + literal.chars.length, stop, placeholder.variableName⟩ :: rest.tokens stop

/-- The literals and the values of the placeholders, in order. -/
def rendered (value : String → String) : Template → List Char
  | last literal => literal.chars
  | placed literal placeholder rest =>
    literal.chars ++ (value placeholder.variableName).toList ++ rest.rendered value

end Template

/-! ## One action -/

section Actions
variable {action name : String} {rest : List Char} {o a : Nat}

/-- What a name of the list cannot hold. -/
theorem allowed_chars :
    ∀ name ∈ allowedTemplateVariables, name ≠ "" ∧ ∀ c ∈ name.toList, isSpace c = false ∧
    c ∉ [' ', '\t', '\r', '\n', '|', '(', ')'] ∧ c ≠ closeBrace := by
  have h : (allowedTemplateVariables.all fun name => name != "" && name.toList.all fun c =>
      isSpace c == false && !([' ', '\t', '\r', '\n', '|', '(', ')'].contains c) &&
        c != closeBrace) = true := by decide
  intro name hname
  have hall := List.all_eq_true.1 h name hname
  rw [Bool.and_eq_true, List.all_eq_true] at hall
  refine ⟨by simpa using hall.1, fun c hc => ?_⟩
  have hplain := hall.2 c hc
  rw [Bool.and_eq_true, Bool.and_eq_true] at hplain
  exact ⟨by simpa using hplain.1.1, by simpa using hplain.1.2, by simpa using hplain.2⟩

theorem parseTemplateVariable_iff :
    parseTemplateVariable action = .ok name ↔ action.toList = '.' :: name.toList ∧
    name ∈ allowedTemplateVariables := by
  unfold parseTemplateVariable
  constructor
  · intro h
    split at h
    · cases h
    split at h
    · cases h
    rename_i hdot
    split at h
    · cases h
    dsimp only at h
    split at h
    · cases h
    split at h
    · cases h
    rename_i hallowed
    obtain rfl := Except.ok.inj h
    obtain ⟨tail, htail⟩ := List.head?_eq_some_iff.1 (not_not.1 hdot)
    exact ⟨by rw [String.toList_ofList, htail, List.drop_succ_cons, List.drop_zero], not_not.1 hallowed⟩
  · rintro ⟨haction, hallowed⟩
    obtain ⟨hne, hchars⟩ := allowed_chars name hallowed
    have hnonempty : action ≠ "" := by
      rintro rfl
      cases haction
    have hplain : (action.toList.any (· ∈ [' ', '\t', '\r', '\n', '|', '(', ')'])) = false := by
      rw [haction, List.any_cons]
      simp only [Bool.or_eq_false_iff, List.any_eq_false, decide_eq_true_eq]
      exact ⟨by decide, fun c hc => (hchars c hc).2.1⟩
    have hname : String.ofList (action.toList.drop 1) = name := by
      rw [haction, List.drop_succ_cons, List.drop_zero, String.ofList_toList]
    have hdot : action.toList.head? = some '.' := by rw [haction, List.head?_cons]
    simp only [hnonempty, hdot, hplain, hname, hne, hallowed, if_false, ne_eq, not_true_eq_false,
      Bool.false_eq_true]

namespace Placeholder

theorem closing_not_mem (p : Placeholder) : closeBrace ∉ p.inner := by
  have hspace : isSpace closeBrace = false := by decide
  intro hmem
  simp only [inner, List.mem_append, List.mem_cons] at hmem
  rcases hmem with (h | h | h) | h
  · exact absurd (p.left_space _ h) (by rw [hspace]; decide)
  · exact absurd h (by decide)
  · exact ((allowed_chars _ p.allowed).2 _ h).2.2 rfl
  · exact absurd (p.right_space _ h) (by rw [hspace]; decide)

/-- An action never starts with a brace. -/
theorem head_inner (p : Placeholder) : p.inner.head? ≠ some openBrace := by
  have hspace : isSpace openBrace = false := by decide
  have hdot : '.' ≠ openBrace := by decide
  rw [inner]
  cases hleft : p.left with
  | nil => simpa using hdot
  | cons c left =>
    intro h
    have hc : c = openBrace := by simpa using h
    have := p.left_space c (by rw [hleft]; exact List.mem_cons_self)
    rw [hc, hspace] at this
    cases this

end Placeholder

/-- An action is a variable between white space. -/
theorem action_iff {chars : List Char} :
    parseTemplateVariable (trimSpace (String.ofList chars)) = .ok name ↔
      ∃ p : Placeholder, p.inner = chars ∧ p.variableName = name := by
  rw [parseTemplateVariable_iff]
  constructor
  · rintro ⟨haction, hallowed⟩
    obtain ⟨left, right, hleft, hright, hchars⟩ := exists_trimSpace (String.ofList chars)
    rw [String.toList_ofList, haction] at hchars
    exact ⟨⟨left, name, right, hleft, hright, hallowed⟩, by rw [hchars, Placeholder.inner], rfl⟩
  · rintro ⟨p, rfl, rfl⟩
    refine ⟨?_, p.allowed⟩
    have hchars := (allowed_chars _ p.allowed).2
    have hne := (allowed_chars _ p.allowed).1
    have htrimmed : IsTrimmed ('.' :: p.variableName.toList) := by
      constructor
      · rintro c hc
        obtain rfl : '.' = c := by simpa using hc
        decide
      · intro c hc
        have hlast := List.mem_of_getLast? hc
        rcases List.mem_cons.1 hlast with rfl | hmem
        · decide
        · exact (hchars c hmem).1
    rw [Placeholder.inner, trimSpace_append p.left_space p.right_space htrimmed
      (List.cons_ne_nil _ _), String.toList_ofList]

/-! The delimiters around it. -/

theorem indexOf_opening_iff {chars : List Char} (tail : List Char) :
    indexOf openDelimiter (chars ++ openDelimiter ++ tail) = some chars.length ↔
      ¬ openDelimiter <:+: chars ∧ chars.getLast? ≠ some openBrace := by
  rw [indexOf_append_iff (by decide), ← not_or]
  exact not_congr pair_infix_concat

theorem indexOf_closing (p : Placeholder) (tail : List Char) :
    indexOf closeDelimiter (p.inner ++ closeDelimiter ++ tail) = some p.inner.length := by
  rw [indexOf_append_iff (by decide)]
  intro h
  rcases pair_infix_concat.1 h with h | h
  · exact p.closing_not_mem (h.subset List.mem_cons_self)
  · exact p.closing_not_mem (List.mem_of_getLast? h)

theorem drop_opening (chars tail : List Char) :
    (chars ++ openDelimiter ++ tail).drop (chars.length + 2) = tail :=
  List.drop_left' (by simp [openDelimiter])

/-- A closing delimiter before the action. -/
theorem closesBefore_iff (chars tail : List Char) :
    ((indexOf closeDelimiter (chars ++ openDelimiter ++ tail)).any fun c => c < chars.length) =
    true ↔ closeDelimiter <:+: chars := by
  rw [List.append_assoc, ← exists_indexOf_lt_iff (by decide)
    (show openBrace ∉ closeDelimiter by decide), Option.any_eq_true]
  simp only [decide_eq_true_eq]
  rfl

/-- A round that finds no action has read a literal. -/
theorem nextAction_none_iff :
    nextAction rest = .ok none ↔ ¬ openDelimiter <:+: rest ∧ ¬ closeDelimiter <:+: rest := by
  rw [← indexOf_eq_none_iff, ← indexOf_eq_none_iff]
  unfold nextAction
  dsimp only
  cases hopen : indexOf openDelimiter rest with
  | none => cases indexOf closeDelimiter rest <;> simp
  | some o =>
    simp only [reduceCtorEq, false_and, iff_false]
    intro h
    split at h
    · cases h
    · split at h
      · cases h
      · obtain ⟨varName, -, h⟩ := map_eq_ok h
        cases h

/-- A round that finds an action has read a literal and a placeholder. -/
theorem nextAction_some_iff : nextAction rest = .ok (some (o, a, name)) ↔
    ∃ (literal : Literal) (p : Placeholder) (tail : List Char), rest = literal.chars ++ p.text ++ tail ∧
      literal.chars.getLast? ≠ some openBrace ∧ literal.chars.length = o ∧ p.inner.length = a ∧
        p.variableName = name := by
  unfold nextAction
  dsimp only
  constructor
  · intro h
    split at h
    · cases h
    rename_i hbefore
    split at h
    · cases h
    rename_i o' hopen
    split at h
    · cases h
    rename_i a' hclose
    obtain ⟨varName, hvariable, h⟩ := map_eq_ok h
    obtain ⟨rfl, rfl, rfl⟩ : o' = o ∧ a' = a ∧ varName = name := by simpa using h
    obtain ⟨chars, after, rfl, rfl⟩ : ∃ chars after, rest = chars ++ openDelimiter ++ after ∧
        chars.length = o' :=
      ⟨_, _, (indexOf_split hopen).2, (indexOf_split hopen).1⟩
    rw [drop_opening] at hclose hvariable
    obtain ⟨body, tail, rfl, rfl⟩ : ∃ body tail, after = body ++ closeDelimiter ++ tail ∧
        body.length = a' :=
      ⟨_, _, (indexOf_split hclose).2, (indexOf_split hclose).1⟩
    rw [List.append_assoc, List.take_left] at hvariable
    obtain ⟨p, rfl, hname⟩ := action_iff.1 hvariable
    obtain ⟨hnoOpening, hlast⟩ := (indexOf_opening_iff _).1 hopen
    simp only [hopen, Option.all_some] at hbefore
    rw [closesBefore_iff] at hbefore
    exact ⟨⟨chars, hnoOpening, hbefore⟩, p, tail, by simp [Placeholder.text], hlast, rfl, rfl, hname⟩
  · rintro ⟨literal, p, tail, rfl, hlast, rfl, rfl, rfl⟩
    have htext : literal.chars ++ p.text ++ tail = literal.chars ++ openDelimiter ++
        (p.inner ++ closeDelimiter ++ tail) := by
      simp [Placeholder.text]
    have hopen := (indexOf_opening_iff (p.inner ++ closeDelimiter ++ tail)).2 ⟨literal.noOpening, hlast⟩
    have hbefore :=
      (not_congr (closesBefore_iff literal.chars (p.inner ++ closeDelimiter ++ tail))).2
        literal.noClosing
    have hvariable := action_iff.2 ⟨p, rfl, rfl⟩
    rw [htext, hopen]
    simp only [Option.all_some]
    rw [if_neg hbefore, drop_opening, indexOf_closing p tail]
    dsimp only
    rw [List.append_assoc, List.take_left, hvariable]
    rfl

end Actions

/-! ## The loop -/

section Loop
variable {tmpl : List Char} {idx fuel : Nat} {tokens : List TemplateActionToken} {literal : Literal}
  {p : Placeholder}
  {tail : List Char}

theorem length_text (p : Placeholder) : p.text.length = p.inner.length + 4 := by
  simp [Placeholder.text, openDelimiter, closeDelimiter]

/-- The round at a placeholder, when no brace comes before it. -/
theorem nextAction_placed (hlast : literal.chars.getLast? ≠ some openBrace) :
    nextAction (literal.chars ++ p.text ++ tail) = .ok
    (some (literal.chars.length, p.inner.length, p.variableName)) :=
  nextAction_some_iff.2 ⟨literal, p, tail, rfl, hlast, rfl, rfl, rfl⟩

/-- A brace before a placeholder is taken for the opening of the action, which it spoils. -/
theorem nextAction_not_clean (hlast : literal.chars.getLast? = some openBrace)
    (found : Option (Nat × Nat × String)) :
    nextAction (literal.chars ++ p.text ++ tail) ≠ .ok found := by
  obtain ⟨chars, hchars⟩ := List.getLast?_eq_some_iff.1 hlast
  have hsplit : literal.chars ++ p.text ++ tail =
      chars ++ openDelimiter ++ (openBrace :: (p.inner ++ closeDelimiter ++ tail)) := by
    simp [hchars, Placeholder.text, openDelimiter]
  have hfirst : indexOf openDelimiter
      (chars ++ openDelimiter ++ (openBrace :: (p.inner ++ closeDelimiter ++ tail))) =
      some chars.length := by
    rw [indexOf_append_iff (by decide)]
    exact fun h => literal.noOpening (hchars ▸ h)
  intro hround
  rw [hsplit] at hround
  cases found with
  | none =>
    have hnone := (nextAction_none_iff.1 hround).1
    rw [← indexOf_eq_none_iff, hfirst] at hnone
    cases hnone
  | some found =>
    obtain ⟨o, a, name⟩ := found
    obtain ⟨literal', p', tail', htext, hlast', -⟩ := nextAction_some_iff.1 hround
    have htext' : literal'.chars ++ p'.text ++ tail' = literal'.chars ++ openDelimiter ++
        (p'.inner ++ closeDelimiter ++ tail') := by
      simp [Placeholder.text]
    have hfirst' :=
      (indexOf_opening_iff (p'.inner ++ closeDelimiter ++ tail')).2 ⟨literal'.noOpening, hlast'⟩
    rw [← htext', ← htext, hfirst, Option.some.injEq] at hfirst'
    rw [htext', List.append_assoc, List.append_assoc literal'.chars] at htext
    obtain ⟨-, hrest⟩ := List.append_inj htext hfirst'
    rw [List.append_cancel_left_eq] at hrest
    -- The action would start with a brace.
    apply p'.head_inner
    cases hinner : p'.inner with
    | nil => simp [Placeholder.inner] at hinner
    | cons c inner =>
      rw [hinner] at hrest
      simp only [List.cons_append, List.cons.injEq] at hrest
      rw [List.head?_cons, hrest.1]

/-- Where the next round starts. -/
theorem drop_placed (h : tmpl.drop idx = literal.chars ++ p.text ++ tail) :
    idx < tmpl.length ∧ tmpl.drop (idx + literal.chars.length + p.text.length) = tail := by
  have hlen := congrArg List.length h
  rw [List.length_drop, List.length_append, List.length_append, length_text] at hlen
  refine ⟨by omega, ?_⟩
  rw [add_assoc, ← List.drop_drop, h, ← List.length_append, List.drop_left]

/-- Every template that is clean is read, token by token. -/
theorem parseLoop_text {t : Template} (hclean : t.Clean) (h : tmpl.drop idx = t.text)
    (hfuel : tmpl.length ≤ idx + fuel) :
    parseLoop tmpl fuel idx = .ok (t.tokens idx) := by
  induction t generalizing idx fuel with
  | last literal =>
    have hround : nextAction (tmpl.drop idx) = .ok none :=
      nextAction_none_iff.2 (h ▸ ⟨literal.noOpening, literal.noClosing⟩)
    cases fuel with
    | zero => rfl
    | succ fuel =>
      rw [parseLoop, hround]
      split <;> rfl
  | placed literal p rest ih =>
    obtain ⟨hlast, hrest⟩ := hclean
    obtain ⟨hlt, hdrop⟩ := drop_placed h
    cases fuel with
    | zero => omega
    | succ fuel =>
      have hstop : idx + literal.chars.length + 2 + p.inner.length + 2 = idx +
          literal.chars.length + p.text.length := by
        rw [length_text]
        omega
      rw [parseLoop, if_pos hlt, h, Template.text, nextAction_placed hlast]
      dsimp only
      rw [hstop, ih hrest hdrop (by rw [length_text]; omega)]
      rfl

/-- What is read is a template, and a clean one. -/
theorem exists_template (h : parseLoop tmpl fuel idx = .ok tokens) (hfuel : tmpl.length ≤ idx + fuel) :
    ∃ t : Template, t.Clean ∧ t.text = tmpl.drop idx := by
  induction fuel generalizing idx tokens with
  | zero => exact ⟨.last ⟨[], by decide, by decide⟩, trivial, (List.drop_of_length_le hfuel).symm⟩
  | succ fuel ih =>
    rw [parseLoop] at h
    split at h
    · split at h
      · cases h
      · rename_i hround
        obtain ⟨hopening, hclosing⟩ := nextAction_none_iff.1 hround
        exact ⟨.last ⟨_, hopening, hclosing⟩, trivial, rfl⟩
      · rename_i o a name hround
        obtain ⟨literal, p, tail, htext, hlast, rfl, rfl, rfl⟩ := nextAction_some_iff.1 hround
        obtain ⟨tokens', hloop, -⟩ := map_eq_ok h
        obtain ⟨t, hclean, ht⟩ := ih hloop (by omega)
        have hdrop := (drop_placed htext).2
        rw [show idx + literal.chars.length + 2 + p.inner.length + 2 = idx + literal.chars.length +
          p.text.length by
          rw [length_text]; omega, hdrop] at ht
        exact ⟨.placed literal p t, ⟨hlast, hclean⟩, by rw [Template.text, ht, htext]⟩
    · rename_i hend
      exact ⟨.last ⟨[], by decide, by decide⟩, trivial,
        by simp [Template.text, List.drop_of_length_le (not_lt.1 hend)]⟩

/-- A template that is read is clean. -/
theorem clean_of_parseLoop {t : Template} (h : parseLoop tmpl fuel idx = .ok tokens)
    (ht : tmpl.drop idx = t.text) (hfuel : tmpl.length ≤ idx + fuel) : t.Clean := by
  induction t generalizing idx fuel tokens with
  | last => trivial
  | placed literal p rest ih =>
    obtain ⟨hlt, hdrop⟩ := drop_placed ht
    cases fuel with
    | zero => omega
    | succ fuel =>
      rw [parseLoop, if_pos hlt, ht, Template.text] at h
      have hlast : literal.chars.getLast? ≠ some openBrace := by
        intro hlast
        split at h
        · cases h
        · rename_i hround
          exact nextAction_not_clean hlast _ hround
        · rename_i hround
          exact nextAction_not_clean hlast _ hround
      rw [nextAction_placed hlast] at h
      dsimp only at h
      obtain ⟨tokens', hloop, -⟩ := map_eq_ok h
      rw [show idx + literal.chars.length + 2 + p.inner.length + 2 = idx + literal.chars.length +
        p.text.length by
        rw [length_text]; omega] at hloop
      exact ⟨hlast, ih hloop hdrop (by rw [length_text]; omega)⟩

/-- The renderer copies the literals and puts the values between them. -/
theorem writeTokens_text {t : Template} (value : String → String) (h : tmpl.drop idx = t.text) :
    writeTokens tmpl value (t.tokens idx) idx = t.rendered value := by
  induction t generalizing idx with
  | last literal => exact h
  | placed literal p rest ih =>
    have hdrop := (drop_placed h).2
    have htake : (literal.chars ++ p.text ++ rest.text).take literal.chars.length = literal.chars := by
      rw [List.append_assoc, List.take_left]
    rw [Template.tokens, writeTokens]
    dsimp only
    rw [ih hdrop, h, Nat.add_sub_cancel_left, Template.text, htake]
    rfl

end Loop

/-! ## The text of a template -/

/-- White space around a word ends where the word does. -/
theorem Placeholder.eq_of_inner {p q : Placeholder} (h : p.inner = q.inner) : p = q := by
  have hname : ∀ p : Placeholder, parseTemplateVariable
      (trimSpace (String.ofList p.inner)) = .ok p.variableName :=
    fun p => action_iff.2 ⟨p, rfl, rfl⟩
  have hleft : ∀ p : Placeholder, p.inner.takeWhile isSpace = p.left := by
    intro p
    rw [Placeholder.inner, List.append_assoc, List.takeWhile_append_of_pos p.left_space,
      List.cons_append,
      List.takeWhile_cons_of_neg (by decide), List.append_nil]
  have hsame : p.left = q.left := by rw [← hleft p, h, hleft q]
  have hvariable : p.variableName = q.variableName :=
    Except.ok.inj ((hname p).symm.trans
      ((congrArg (fun cs => parseTemplateVariable (trimSpace (String.ofList cs))) h).trans (hname q)))
  refine Placeholder.ext hsame hvariable ?_
  rw [Placeholder.inner, Placeholder.inner, hsame, hvariable] at h
  exact List.append_cancel_left h

/-- A clean template is the only one with its text. -/
theorem Template.eq_of_text {t t' : Template} (hclean : t.Clean) (hclean' : t'.Clean)
    (h : t.text = t'.text) : t = t' := by
  induction t generalizing t' with
  | last literal =>
    have hround : nextAction literal.chars = .ok none :=
      nextAction_none_iff.2 ⟨literal.noOpening, literal.noClosing⟩
    cases t' with
    | last literal' => exact congrArg Template.last (Literal.ext h)
    | placed literal' p' rest' =>
      rw [show literal.chars = _ from h, Template.text, nextAction_placed hclean'.1] at hround
      cases hround
  | placed literal p rest ih =>
    have hround : nextAction (literal.chars ++ p.text ++ rest.text) = _ := nextAction_placed hclean.1
    cases t' with
    | last literal' =>
      rw [show literal.chars ++ p.text ++ rest.text = literal'.chars from h,
        nextAction_none_iff.2 ⟨literal'.noOpening, literal'.noClosing⟩] at hround
      cases hround
    | placed literal' p' rest' =>
      have htext : literal.chars ++ p.text ++ rest.text = literal'.chars ++ p'.text ++ rest'.text := h
      rw [htext, nextAction_placed hclean'.1] at hround
      obtain ⟨hliteral, hinner, -⟩ : literal'.chars.length = literal.chars.length ∧
          p'.inner.length = p.inner.length ∧
        p'.variableName = p.variableName := by simpa using hround
      rw [List.append_assoc, List.append_assoc] at htext
      obtain ⟨hchars, htext⟩ := List.append_inj htext hliteral.symm
      obtain ⟨hplaced, hrest⟩ := List.append_inj htext (by rw [length_text, length_text, hinner])
      rw [Placeholder.text, Placeholder.text, List.append_cancel_right_eq,
        List.append_cancel_left_eq] at hplaced
      rw [Literal.ext hchars, Placeholder.eq_of_inner hplaced, ih hclean.2 hclean'.2 hrest]

/-- The validator reads exactly the clean templates, and the renderer puts the values in. -/
theorem parseTemplateActions_text {tmplStr : String} {t : Template} (hclean : t.Clean)
    (h : t.text = tmplStr.toList) :
    parseTemplateActions tmplStr = .ok (t.tokens 0) :=
  parseLoop_text hclean h.symm (by omega)

theorem exists_clean {tmplStr : String} {tokens : List TemplateActionToken}
    (h : parseTemplateActions tmplStr = .ok tokens) :
    ∃ t : Template, t.Clean ∧ t.text = tmplStr.toList ∧ ∀ t' : Template, t'.text = tmplStr.toList →
    t' = t := by
  obtain ⟨t, hclean, htext⟩ := exists_template h (by omega)
  exact ⟨t, hclean, htext, fun t' htext' =>
    Template.eq_of_text (clean_of_parseLoop h htext'.symm (by omega)) hclean (htext'.trans htext.symm)⟩

theorem validateTemplate_ok_iff (tmplStr : String) : validateTemplate tmplStr = .ok () ↔
    tmplStr ≠ "" ∧ tmplStr.utf8ByteSize ≤ maxTemplateLength ∧ ∃ tokens,
    parseTemplateActions tmplStr = .ok tokens := by
  unfold validateTemplate
  rw [ne_eq, ← String.utf8ByteSize_eq_zero_iff]
  split
  · rename_i hempty
    simp [hempty]
  · rename_i hne
    split
    · rename_i hlong
      simp only [reduceCtorEq, false_iff]
      omega
    · rename_i hshort
      cases parseTemplateActions tmplStr <;> simp [Except.map, hne]
      omega

/-- What the renderer makes of a template. -/
theorem renderTemplate_text {tmplStr : String} {t : Template} (hclean : t.Clean)
    (h : t.text = tmplStr.toList) (data : TemplateData) :
    renderTemplate tmplStr data =
      let output := String.ofList (t.rendered (templateValue data))
      if maxRenderedLength < output.utf8ByteSize then .error .renderedTooLong else .ok output := by
  unfold renderTemplate
  have hwritten : writeTokens tmplStr.toList (templateValue data) (t.tokens 0) 0 = t.rendered
      (templateValue data) :=
    writeTokens_text _ (by rw [List.drop_zero, h])
  rw [parseTemplateActions_text hclean h]
  dsimp only
  rw [hwritten]

/-- What each placeholder stands for. -/
structure PlaceholderValues (data : TemplateData) (value : String → String) : Prop where
  subscriptionName : value "SubscriptionName" = data.subscriptionName
  billingDate : value "BillingDate" = data.billingDate
  amount : value "Amount" = formatFloat data.amount
  currency : value "Currency" = data.currency
  daysUntil : value "DaysUntil" = toString data.daysUntil
  eventType : value "EventType" = data.eventType
  renewalMode : value "RenewalMode" = data.renewalMode
  status : value "Status" = data.status
  category : value "Category" = data.category
  paymentMethod : value "PaymentMethod" = data.paymentMethod
  url : value "URL" = data.url
  remark : value "Remark" = data.remark
  userEmail : value "UserEmail" = data.userEmail

theorem placeholderValues (data : TemplateData) : PlaceholderValues data (templateValue data) where
  subscriptionName := rfl
  billingDate := rfl
  amount := rfl
  currency := rfl
  daysUntil := rfl
  eventType := rfl
  renewalMode := rfl
  status := rfl
  category := rfl
  paymentMethod := rfl
  url := rfl
  remark := rfl
  userEmail := rfl

/-- The templates that are accepted are the clean ones within the limit, each in one way; it is
rendered by its literals and the values in order, unless that is too long. -/
theorem template_language (tmplStr : String) :
    (validateTemplate tmplStr = .ok () ↔
      tmplStr ≠ "" ∧ tmplStr.utf8ByteSize ≤ maxTemplateLength ∧ ∃ t : Template, t.Clean ∧
        t.text = tmplStr.toList) ∧
    (validateTemplate tmplStr = .ok () → ∃ t : Template, t.text = tmplStr.toList ∧
      (∀ t' : Template, t'.text = tmplStr.toList → t' = t) ∧
      ∀ data, ∃ value, PlaceholderValues data value ∧ renderTemplate tmplStr data =
        if maxRenderedLength < (String.ofList (t.rendered value)).utf8ByteSize then
          .error .renderedTooLong
        else .ok (String.ofList (t.rendered value))) := by
  rw [validateTemplate_ok_iff]
  constructor
  · constructor
    · rintro ⟨hne, hshort, tokens, h⟩
      obtain ⟨t, hclean, htext, -⟩ := exists_clean h
      exact ⟨hne, hshort, t, hclean, htext⟩
    · rintro ⟨hne, hshort, t, hclean, htext⟩
      exact ⟨hne, hshort, t.tokens 0, parseTemplateActions_text hclean htext⟩
  · rintro ⟨-, -, tokens, h⟩
    obtain ⟨t, hclean, htext, hunique⟩ := exists_clean h
    refine ⟨t, htext, hunique, fun data => ?_⟩
    exact ⟨templateValue data, placeholderValues data, renderTemplate_text hclean htext data⟩

/-- A name that looks like a placeholder is written as it is. -/
example : renderTemplate "\x7b\x7b .SubscriptionName \x7d\x7d: \x7b\x7b.Amount\x7d\x7d"
    { subscriptionName := "\x7b\x7b.URL\x7d\x7d \x7b\x7b", billingDate := "",
      amount := Binary64.ofValue (25 / 2), currency := "", daysUntil := 0,
      eventType := "", renewalMode := "", status := "", category := "", paymentMethod := "", url :=
        "", remark := "",
      userEmail := "" } = .ok "\x7b\x7b.URL\x7d\x7d \x7b\x7b: 12.5" := by
  decide +kernel

end Subdux.Templates
