import Mathlib.Init
/-!
# Calls over a database

A call runs statements one after the other over a state, and stops at the first error with what
was written before it; a `transaction` undoes that. `KeepsTo excused before p t`: run from `t`, the
call leaves `before` behind where it fails with an error that is not excused.

`keepsTo_bind_iff` takes a call apart at each step. After a step that changed the state for good
(`Preserves`), the rest must succeed (`keepsTo_iff_of_changed`).
-/

namespace Statements
universe u
variable {σ ε α β : Type u}

abbrev Call (σ ε α : Type u) := ExceptT ε (StateM σ) α

/-- What the call gives, and the state it leaves. -/
def outcome (p : Call σ ε α) (s : σ) : Except ε α × σ := p.run.run s

/-! ## Statements -/

/-- A statement that only reads. -/
def ask (f : σ → Except ε α) : Call σ ε α := ExceptT.mk fun s => (f s, s)

/-- A statement that writes, or fails. -/
def change (f : σ → Except ε σ) : Call σ ε PUnit := ExceptT.mk fun s =>
  match f s with
  | .ok t => (.ok .unit, t)
  | .error err => (.error err, s)

def transaction (p : Call σ ε α) : Call σ ε α := ExceptT.mk fun s =>
  match outcome p s with
  | (.ok a, t) => (.ok a, t)
  | (.error err, _) => (.error err, s)

/-- A call whose error is not looked at. -/
def attempt (p : Call σ ε α) : Call σ ε PUnit := ExceptT.mk fun s => (.ok .unit, (outcome p s).2)

section Outcome
variable {p : Call σ ε α} {f : α → Call σ ε β} {s t : σ} {a : α} {err : ε}

theorem outcome_bind_ok (h : outcome p s = (.ok a, t)) : outcome (p >>= f) s = outcome (f a) t := by
  change outcome (ExceptT.mk (p.run >>= ExceptT.bindCont f)) s = _
  change (ExceptT.bindCont f (outcome p s).1).run (outcome p s).2 = _
  rw [h]
  rfl

theorem outcome_bind_error (h : outcome p s = (.error err, t)) :
    outcome (p >>= f) s = (.error err, t) := by
  change (ExceptT.bindCont f (outcome p s).1).run (outcome p s).2 = _
  rw [h]
  rfl

@[simp] theorem outcome_pure (a : α) (s : σ) : outcome (pure a : Call σ ε α) s = (.ok a, s) := rfl
@[simp] theorem outcome_throw (err : ε) (s : σ) :
    outcome (throw err : Call σ ε α) s = (.error err, s) := rfl
@[simp] theorem outcome_ask (f : σ → Except ε α) (s : σ) : outcome (ask f) s = (f s, s) := rfl
@[simp] theorem outcome_attempt (p : Call σ ε α) (s : σ) :
    outcome (attempt p) s = (.ok .unit, (outcome p s).2) := rfl

theorem outcome_ask_bind (g : σ → Except ε α) (s : σ) : outcome (ask g >>= f) s =
    match g s with
    | .ok a => outcome (f a) s
    | .error err => (.error err, s) := by
  cases h : g s with
  | ok a => exact outcome_bind_ok (Prod.ext h rfl)
  | error err => exact outcome_bind_error (Prod.ext h rfl)

theorem outcome_change (g : σ → Except ε σ) (s : σ) : outcome (change g) s =
    match g s with
    | .ok t => (.ok .unit, t)
    | .error err => (.error err, s) := rfl

theorem outcome_transaction (p : Call σ ε α) (s : σ) : outcome (transaction p) s =
    match outcome p s with
    | (.ok a, t) => (.ok a, t)
    | (.error err, _) => (.error err, s) := rfl

theorem outcome_transaction_ok (h : outcome p s = (.ok a, t)) :
    outcome (transaction p) s = (.ok a, t) := by
  rw [outcome_transaction, h]

theorem outcome_transaction_error (h : outcome p s = (.error err, t)) :
    outcome (transaction p) s = (.error err, s) := by
  rw [outcome_transaction, h]

theorem outcome_attempt_bind (p : Call σ ε α) (g : PUnit → Call σ ε β) (s : σ) :
    outcome (attempt p >>= g) s = outcome (g .unit) (outcome p s).2 := outcome_bind_ok rfl

end Outcome

/-! ## What a failing call leaves -/

/-- The errors of the call are among those that `Q` allows. -/
def Raises (Q : ε → Prop) (p : Call σ ε α) : Prop := ∀ s err, (outcome p s).1 = .error err → Q err

def Succeeds (p : Call σ ε α) (s : σ) : Prop := ∃ a t, outcome p s = (.ok a, t)

/-- An error that is not excused leaves `before` behind. -/
def KeepsTo (excused : ε → Prop) (before : σ) (p : Call σ ε α) (s : σ) : Prop :=
  ∀ err, (outcome p s).1 = .error err → ¬ excused err → (outcome p s).2 = before

def ReadOnly (p : Call σ ε α) : Prop := ∀ s, (outcome p s).2 = s

/-- The call keeps the states that satisfy `P` among them. -/
def Preserves (P : σ → Prop) (p : Call σ ε α) : Prop := ∀ s, P s → P (outcome p s).2

section Rules
variable {excused : ε → Prop} {before s t : σ} {p : Call σ ε α} {f : α → Call σ ε β} {P : σ → Prop}

theorem outcome_cases (p : Call σ ε α) (s : σ) :
    (∃ a t, outcome p s = (.ok a, t)) ∨ ∃ err t, outcome p s = (.error err, t) := by
  cases h : outcome p s with
  | mk r t =>
    cases r with
    | ok a => exact .inl ⟨a, t, rfl⟩
    | error err => exact .inr ⟨err, t, rfl⟩

/-- A sequence is taken apart where its first part ends. -/
theorem keepsTo_bind_iff : KeepsTo excused before (p >>= f) s ↔
    KeepsTo excused before p s ∧ ∀ a t, outcome p s = (.ok a, t) → KeepsTo excused before (f a) t := by
  rcases outcome_cases p s with ⟨a, t, h⟩ | ⟨err, t, h⟩
  · constructor
    · intro hkeeps
      refine ⟨fun err herr => ?_, fun b u hb => ?_⟩
      · rw [h] at herr
        cases herr
      · rw [h] at hb
        cases hb
        intro err herr hexcused
        rw [← outcome_bind_ok h] at herr ⊢
        exact hkeeps err herr hexcused
    · rintro ⟨-, hrest⟩ err herr hexcused
      rw [outcome_bind_ok h] at herr ⊢
      exact hrest a t h err herr hexcused
  · unfold KeepsTo
    rw [outcome_bind_error h, h]
    refine ⟨fun hkeeps => ⟨fun e he => hkeeps e (by cases he; rfl), fun a u ha => ?_⟩,
      fun hkeeps e he => hkeeps.1 e (by cases he; rfl)⟩
    cases ha

theorem ReadOnly.keepsTo (h : ReadOnly p) : KeepsTo excused s p s := fun _ _ _ => h s

/-- A sequence whose first part only reads. -/
theorem ReadOnly.keepsTo_bind_iff (h : ReadOnly p) :
    KeepsTo excused s (p >>= f) s ↔ ∀ a, (outcome p s).1 = .ok a → KeepsTo excused s (f a) s := by
  rw [Statements.keepsTo_bind_iff, and_iff_right h.keepsTo]
  constructor
  · exact fun hrest a ha => hrest a s (Prod.ext ha (h s))
  · intro hrest a t ha
    have hsame := h s
    rw [ha] at hsame
    obtain rfl : t = s := hsame
    exact hrest a (by rw [ha])

/-- Where the state has changed for good, only an excused error is left. -/
theorem keepsTo_iff_of_changed (hbefore : ¬ P before) (hs : P s) (hp : Preserves P p) :
    KeepsTo excused before p s ↔ ∀ err, (outcome p s).1 = .error err → excused err := by
  constructor
  · intro hkeeps err herr
    refine Classical.byContradiction fun hexcused => hbefore ?_
    rw [← hkeeps err herr hexcused]
    exact hp s hs
  · exact fun hall err herr hexcused => absurd (hall err herr) hexcused

/-! ### Read-only calls -/

theorem readOnly_ask (f : σ → Except ε α) : ReadOnly (ask f) := fun _ => rfl
theorem readOnly_pure (a : α) : ReadOnly (pure a : Call σ ε α) := fun _ => rfl
theorem ReadOnly.bind (hp : ReadOnly p) (hf : ∀ a, ReadOnly (f a)) : ReadOnly (p >>= f) := by
  intro s
  have hsame := hp s
  rcases outcome_cases p s with ⟨a, t, h⟩ | ⟨err, t, h⟩
  · rw [h] at hsame
    obtain rfl : t = s := hsame
    rw [outcome_bind_ok h]
    exact hf a t
  · rw [h] at hsame
    rw [outcome_bind_error h]
    exact hsame

/-! ### What is preserved -/

theorem ReadOnly.preserves (h : ReadOnly p) : Preserves P p := fun s hs => (h s).symm ▸ hs

theorem Preserves.bind (hp : Preserves P p) (hf : ∀ a, Preserves P (f a)) : Preserves P (p >>= f) := by
  intro s hs
  have hmid := hp s hs
  rcases outcome_cases p s with ⟨a, t, h⟩ | ⟨err, t, h⟩
  · rw [h] at hmid
    rw [outcome_bind_ok h]
    exact hf a t hmid
  · rw [h] at hmid
    rw [outcome_bind_error h]
    exact hmid

theorem Preserves.transaction (h : Preserves P p) : Preserves P (transaction p) := by
  intro s hs
  have hmid := h s hs
  rw [outcome_transaction]
  rcases outcome_cases p s with ⟨a, t, h⟩ | ⟨err, t, h⟩
  · rw [h] at hmid ⊢
    exact hmid
  · rw [h]
    exact hs

theorem Preserves.attempt (h : Preserves P p) : Preserves P (attempt p) := fun s hs => h s hs

theorem preserves_change {g : σ → Except ε σ} (h : ∀ s t, P s → g s = .ok t → P t) :
    Preserves P (change g) := by
  intro s hs
  rw [outcome_change]
  cases hg : g s with
  | error err => exact hs
  | ok t => exact h s t hs hg

/-! ### Errors -/

theorem raises_ask {Q : ε → Prop} {g : σ → Except ε α} (h : ∀ s err, g s = .error err → Q err) :
    Raises Q (ask g) := h

theorem raises_pure {Q : ε → Prop} (a : α) : Raises Q (pure a : Call σ ε α) := fun s err h => by cases h

theorem raises_attempt {Q : ε → Prop} (p : Call σ ε α) : Raises Q (attempt p) :=
  fun s err h => by cases h

theorem raises_change {Q : ε → Prop} {g : σ → Except ε σ} (h : ∀ s err, g s = .error err → Q err) :
    Raises Q (change g) := by
  intro s err herr
  rw [outcome_change] at herr
  cases hg : g s with
  | ok t =>
    rw [hg] at herr
    cases herr
  | error e =>
    rw [hg] at herr
    cases herr
    exact h s err hg

theorem Raises.bind {Q : ε → Prop} (hp : Raises Q p) (hf : ∀ a, Raises Q (f a)) : Raises Q
    (p >>= f) := by
  intro s err herr
  rcases outcome_cases p s with ⟨a, t, h⟩ | ⟨e, t, h⟩
  · rw [outcome_bind_ok h] at herr
    exact hf a t err herr
  · rw [outcome_bind_error h] at herr
    cases herr
    exact hp s err (by rw [h])

theorem Raises.transaction {Q : ε → Prop} (hp : Raises Q p) : Raises Q (transaction p) := by
  intro s err herr
  rw [outcome_transaction] at herr
  rcases outcome_cases p s with ⟨a, t, h⟩ | ⟨e, t, h⟩
  · rw [h] at herr
    cases herr
  · rw [h] at herr
    cases herr
    exact hp s err (by rw [h])

/-! ### Success -/

/-- Where the state has changed for good and no error is excused, the call must succeed. -/
theorem keepsTo_iff_succeeds (hbefore : ¬ P before) (hs : P s) (hp : Preserves P p)
    (hraises : Raises (¬ excused ·) p) :
    KeepsTo excused before p s ↔ Succeeds p s := by
  rw [keepsTo_iff_of_changed hbefore hs hp]
  rcases outcome_cases p s with ⟨a, t, h⟩ | ⟨err, t, h⟩
  · refine iff_of_true (fun err herr => ?_) ⟨a, t, h⟩
    rw [h] at herr
    cases herr
  · refine iff_of_false (fun hall => ?_) ?_
    · exact hraises s err (by rw [h]) (hall err (by rw [h]))
    · rintro ⟨a, u, ha⟩
      rw [h] at ha
      cases ha

theorem succeeds_bind_iff :
    Succeeds (p >>= f) s ↔ ∃ a t, outcome p s = (.ok a, t) ∧ Succeeds (f a) t := by
  constructor
  · rintro ⟨b, u, hb⟩
    rcases outcome_cases p s with ⟨a, t, h⟩ | ⟨err, t, h⟩
    · exact ⟨a, t, h, b, u, (outcome_bind_ok h).symm.trans hb⟩
    · rw [outcome_bind_error h] at hb
      cases hb
  · rintro ⟨a, t, h, b, u, hb⟩
    exact ⟨b, u, (outcome_bind_ok h).trans hb⟩

theorem succeeds_pure (a : α) : Succeeds (pure a : Call σ ε α) s := ⟨a, s, rfl⟩

theorem succeeds_bind_pure (a : α) : Succeeds (pure a >>= f) s ↔ Succeeds (f a) s := by
  unfold Succeeds
  rw [outcome_bind_ok (outcome_pure a s)]

theorem succeeds_ask_bind (g : σ → Except ε α) :
    Succeeds (ask g >>= f) s ↔ ∃ a, g s = .ok a ∧ Succeeds (f a) s := by
  rw [succeeds_bind_iff]
  simp only [outcome_ask, Prod.mk.injEq]
  constructor
  · rintro ⟨a, t, ⟨ha, rfl⟩, h⟩
    exact ⟨a, ha, h⟩
  · rintro ⟨a, ha, h⟩
    exact ⟨a, s, ⟨ha, rfl⟩, h⟩

theorem succeeds_change_bind (g : σ → Except ε σ) (f : PUnit → Call σ ε β) :
    Succeeds (change g >>= f) s ↔ ∃ t, g s = .ok t ∧ Succeeds (f .unit) t := by
  rw [succeeds_bind_iff, outcome_change]
  cases g s with
  | ok t =>
    constructor
    · rintro ⟨_, _, ⟨⟩, h⟩
      exact ⟨t, rfl, h⟩
    · rintro ⟨_, ⟨⟩, h⟩
      exact ⟨.unit, t, rfl, h⟩
  | error err => simp

theorem succeeds_transaction : Succeeds (transaction p) s ↔ Succeeds p s := by
  unfold Succeeds
  rw [outcome_transaction]
  rcases outcome_cases p s with ⟨a, t, h⟩ | ⟨err, t, h⟩ <;> simp [h]

theorem succeeds_transaction_bind : Succeeds (transaction p >>= f) s ↔ Succeeds (p >>= f) s := by
  rw [succeeds_bind_iff, succeeds_bind_iff, outcome_transaction]
  rcases outcome_cases p s with ⟨a, t, h⟩ | ⟨err, t, h⟩ <;> simp [h]

theorem succeeds_attempt_bind (p : Call σ ε α) (g : PUnit → Call σ ε β) :
    Succeeds (attempt p >>= g) s ↔ Succeeds (g .unit) (outcome p s).2 := by
  unfold Succeeds
  rw [outcome_attempt_bind]

end Rules

end Statements
