import Mathlib.Logic.Function.Basic
import Subdux.Lib.Runs
/-!
# Requests of several accounts

A request is a sequence of statements on shared tables, and statements of other requests may
come between two of its own. A statement is `Confined` to an account when it changes nothing
that another account sees, and what it does and answers depends only on what its own account
sees. It may rest on facts that the request has learned, such as who an id was handed to;
no statement takes a fact away.

Of a run in which every request is confined to its account, the events of the other accounts
can be left out: the account sees and is answered the same (`isolated`).
-/

namespace Tenants
open Runs

/-! ## Requests -/

/-- What is left of a request. A statement is given an id for the row it may insert; it is
`none` when that id cannot be the next one. -/
inductive Request (σ ρ : Type) where
  | done (result : ρ)
  | statement (run : Nat → σ → Option (σ × Request σ ρ))

variable {σ ρ α β κ : Type}

def Request.read (query : σ → β) (next : β → Request σ ρ) : Request σ ρ :=
  .statement fun _ t => some (t, next (query t))

def Request.write (run : Nat → σ → Option (σ × β)) (next : β → Request σ ρ) : Request σ ρ :=
  .statement fun id t => (run id t).map fun (s, b) => (s, next b)

structure System (σ ρ : Type) where
  tables : σ
  /-- The requests of an account, by number. -/
  running : Nat → Nat → Option (Request σ ρ)

inductive Event (α : Type) where
  | start (account number : Nat) (action : α)
  | statement (account number id : Nat)

def Event.account : Event α → Nat
  | start account _ _ => account
  | statement account _ _ => account

def System.put (s : System σ ρ) (account number : Nat) (request : Request σ ρ) : System σ ρ :=
  { s with running := Function.update s.running account (set (s.running account) number (some request)) }

def step (handle : α → Nat → Request σ ρ) (s : System σ ρ) : Event α → Option (System σ ρ)
  | .start account number action =>
    match s.running account number with
    | none => some (s.put account number (handle action account))
    | some _ => none
  | .statement account number id =>
    match s.running account number with
    | some (.statement run) =>
      (run id s.tables).map fun (t, next) => { s with tables := t }.put account number next
    | _ => none

/-- The events of one account. -/
def only (account : Nat) (events : List (Event α)) : List (Event α) :=
  events.filter (·.account = account)

/-! ## Confined requests -/

section Confined
variable (Inv : σ → Prop) (Holds : σ → Nat → κ → Prop) (Sees : Nat → σ → σ → Prop)

/-- What a statement of account `u` leaves: the others see what they saw, and no fact is lost. -/
structure Keeps (u : Nat) (t s : σ) : Prop where
  inv : Inv s
  others : ∀ v, v ≠ u → ∀ t', Sees v t t' → Sees v s t'
  facts : ∀ v k, Holds t v k → Holds s v k

/-- A request of account `u` that knows the facts `F`. -/
inductive Confined (u : Nat) : (κ → Prop) → Request σ ρ → Prop where
  | done (F : κ → Prop) (result : ρ) : Confined u F (.done result)
  | statement (F : κ → Prop) (run : Nat → σ → Option (σ × Request σ ρ))
      (keeps : ∀ id t s r, Inv t → (∀ k, F k → Holds t u k) → run id t = some (s, r) →
        Keeps Inv Holds Sees u t s)
      (agrees : ∀ id t t' s r, Inv t → Inv t' → (∀ k, F k → Holds t u k) →
        (∀ k, F k → Holds t' u k) → Sees u t t' →
        run id t = some (s, r) → ∃ s', run id t' = some (s', r) ∧ Sees u s s')
      (next : ∀ id t s r, Inv t → (∀ k, F k → Holds t u k) → run id t = some (s, r) →
        Confined u (Holds s u) r) :
      Confined u F (.statement run)

variable {Inv Holds Sees} {u : Nat} {F G : κ → Prop} {r : Request σ ρ}

/-- A request that knows more is confined too. -/
theorem Confined.mono (h : Confined Inv Holds Sees u F r) (hle : ∀ k, F k → G k) :
    Confined Inv Holds Sees u G r := by
  cases h with
  | done _ result => exact .done G result
  | statement _ run keeps agrees next =>
    refine .statement G run ?_ ?_ ?_
    · exact fun id t s r ht hG => keeps id t s r ht fun k hk => hG k (hle k hk)
    · exact fun id t t' s r ht ht' hG hG' => agrees id t t' s r ht ht' (fun k hk => hG k (hle k hk))
        fun k hk => hG' k (hle k hk)
    · exact fun id t s r ht hG => next id t s r ht fun k hk => hG k (hle k hk)

/-- A query of what the account sees. -/
theorem Confined.read {query : σ → β} {next : β → Request σ ρ}
    (hquery : ∀ t t', Inv t → Inv t' → Sees u t t' → query t = query t')
    (hnext : ∀ t, Inv t → (∀ k, F k → Holds t u k) → Confined Inv Holds Sees u (Holds t u)
      (next (query t))) :
    Confined Inv Holds Sees u F (.read query next) := by
  refine .statement F _ ?_ ?_ ?_
  · intro id t s r ht _ h
    obtain ⟨rfl, -⟩ := Prod.mk.inj (Option.some.inj h)
    exact ⟨ht, fun _ _ _ h => h, fun _ _ h => h⟩
  · intro id t t' s r ht ht' _ _ hsees h
    obtain ⟨rfl, rfl⟩ := Prod.mk.inj (Option.some.inj h)
    exact ⟨t', by rw [hquery t t' ht ht' hsees], hsees⟩
  · intro id t s r ht hF h
    obtain ⟨rfl, rfl⟩ := Prod.mk.inj (Option.some.inj h)
    exact hnext t ht hF

theorem Confined.write {run : Nat → σ → Option (σ × β)} {next : β → Request σ ρ}
    (keeps : ∀ id t s b, Inv t → (∀ k, F k → Holds t u k) → run id t = some (s, b) →
      Keeps Inv Holds Sees u t s)
    (agrees : ∀ id t t' s b, Inv t → Inv t' → (∀ k, F k → Holds t u k) → (∀ k, F k → Holds t' u k) →
      Sees u t t' →
      run id t = some (s, b) → ∃ s', run id t' = some (s', b) ∧ Sees u s s')
    (hnext : ∀ G b, Confined Inv Holds Sees u G (next b)) : Confined Inv Holds Sees u F
    (.write run next) := by
  refine .statement F _ ?_ ?_ ?_
  · intro id t s r ht hF h
    obtain ⟨⟨s, b⟩, hrun, hsame⟩ := Option.map_eq_some_iff.1 h
    obtain ⟨rfl, -⟩ := Prod.mk.inj hsame
    exact keeps id t _ b ht hF hrun
  · intro id t t' s r ht ht' hF hF' hsees h
    obtain ⟨⟨s, b⟩, hrun, hsame⟩ := Option.map_eq_some_iff.1 h
    obtain ⟨rfl, rfl⟩ := Prod.mk.inj hsame
    obtain ⟨s', hrun', hsees'⟩ := agrees id t t' _ b ht ht' hF hF' hsees hrun
    exact ⟨s', Option.map_eq_some_iff.2 ⟨_, hrun', rfl⟩, hsees'⟩
  · intro id t s r _ _ h
    obtain ⟨⟨s, b⟩, -, hsame⟩ := Option.map_eq_some_iff.1 h
    obtain ⟨-, rfl⟩ := Prod.mk.inj hsame
    exact hnext _ b

/-! ### Whole runs -/

variable (Inv Holds Sees) in
structure SystemInv (s : System σ ρ) : Prop where
  tables : Inv s.tables
  requests : ∀ u i r, s.running u i = some r → Confined Inv Holds Sees u (Holds s.tables u) r

variable (Sees) in
/-- Account `u` cannot tell the second system from the first. -/
structure SeesSystem (u : Nat) (s s' : System σ ρ) : Prop where
  tables : Sees u s.tables s'.tables
  requests : s.running u = s'.running u

theorem System.put_self (s : System σ ρ) (u i : Nat) (r : Request σ ρ) :
    (s.put u i r).running u = set (s.running u) i (some r) :=
  Function.update_self ..

theorem System.put_of_ne (s : System σ ρ) {u v : Nat} (i : Nat) (r : Request σ ρ) (h : v ≠ u) :
    (s.put u i r).running v = s.running v := Function.update_of_ne h ..

theorem System.put_requests {s : System σ ρ} {t : σ} {i : Nat}
    (hs : ∀ v j r, s.running v j = some r → Confined Inv Holds Sees v (Holds t v) r)
    (hr : Confined Inv Holds Sees u (Holds t u) r) :
    ∀ v j q, (s.put u i r).running v j = some q → Confined Inv Holds Sees v (Holds t v) q := by
  intro v j q hq
  by_cases hv : v = u
  · subst hv
    rw [System.put_self] at hq
    refine forall_set (P := fun _ q => Confined Inv Holds Sees v (Holds t v) q) (hs v) ?_ j q hq
    intro q hq
    rw [← Option.some.inj hq]
    exact hr
  · rw [System.put_of_ne s i r hv] at hq
    exact hs v j q hq

variable {handle : α → Nat → Request σ ρ} {s s' t : System σ ρ} {e : Event α} {es : List (Event α)}

/-- Events of other accounts are not seen. -/
theorem SeesSystem.other (hsees : SeesSystem Sees u s s') (h : SystemInv Inv Holds Sees s)
    (hstep : step handle s e = some t) (hother : e.account ≠ u) : SeesSystem Sees u t s' := by
  cases e with
  | start v i a =>
    unfold Tenants.step at hstep
    dsimp only at hstep
    split at hstep
    · obtain rfl := Option.some.inj hstep
      exact ⟨hsees.tables, (System.put_of_ne s i _ fun hv => hother hv.symm).trans hsees.requests⟩
    · cases hstep
  | statement v i id =>
    unfold Tenants.step at hstep
    dsimp only at hstep
    split at hstep
    · rename_i run hrunning
      obtain ⟨⟨tables, next⟩, hrun, rfl⟩ := Option.map_eq_some_iff.1 hstep
      cases h.requests v i _ hrunning with
      | statement _ _ keeps _ _ =>
        have hkept := keeps id s.tables tables next h.tables (fun _ hk => hk) hrun
        have hne : u ≠ v := fun hv => hother hv.symm
        exact ⟨hkept.others u hne _ hsees.tables, (System.put_of_ne _ i _ hne).trans hsees.requests⟩
    · cases hstep

section Own
variable (hfacts : ∀ u t t' k, Sees u t t' → Holds t' u k → Holds t u k)
include hfacts

/-- An event of the account happens in the second system as in the first. -/
theorem SeesSystem.own (hsees : SeesSystem Sees u s s') (h : SystemInv Inv Holds Sees s)
    (h' : SystemInv Inv Holds Sees s') (hstep : step handle s e = some t) (hown : e.account = u) :
    ∃ t', step handle s' e = some t' ∧ SeesSystem Sees u t t' := by
  subst hown
  cases e with
  | start v i a =>
    unfold Tenants.step at hstep ⊢
    dsimp only [Event.account] at hsees hstep ⊢
    rw [← hsees.requests]
    split at hstep
    · obtain rfl := Option.some.inj hstep
      refine ⟨_, rfl, hsees.tables, ?_⟩
      rw [System.put_self, System.put_self, hsees.requests]
    · cases hstep
  | statement v i id =>
    unfold Tenants.step at hstep ⊢
    dsimp only [Event.account] at hsees hstep ⊢
    rw [← hsees.requests]
    split at hstep
    · rename_i run hrunning
      obtain ⟨⟨tables, next⟩, hrun, rfl⟩ := Option.map_eq_some_iff.1 hstep
      have hconfined := h'.requests v i _ (hsees.requests ▸ hrunning)
      cases hconfined with
      | statement _ _ _ agrees _ =>
        obtain ⟨tables', hrun', hsees'⟩ := agrees id s.tables s'.tables tables next h.tables h'.tables
          (fun k hk => hfacts v _ _ k hsees.tables hk) (fun _ hk => hk) hsees.tables hrun
        refine ⟨_, Option.map_eq_some_iff.2 ⟨_, hrun', rfl⟩, hsees', ?_⟩
        rw [System.put_self, System.put_self]
        exact congrArg (fun running => set running i (some next)) hsees.requests
    · cases hstep

end Own

variable (hhandle : ∀ a u, Confined Inv Holds Sees u (fun _ => False) (handle a u))
include hhandle

theorem SystemInv.step (h : SystemInv Inv Holds Sees s) (hstep : step handle s e = some t) :
    SystemInv Inv Holds Sees t := by
  cases e with
  | start u i a =>
    unfold Tenants.step at hstep
    dsimp only at hstep
    split at hstep
    · obtain rfl := Option.some.inj hstep
      exact ⟨h.tables, System.put_requests h.requests ((hhandle a u).mono fun _ hk => hk.elim)⟩
    · cases hstep
  | statement u i id =>
    unfold Tenants.step at hstep
    dsimp only at hstep
    split at hstep
    · rename_i run hrunning
      obtain ⟨⟨tables, next⟩, hrun, rfl⟩ := Option.map_eq_some_iff.1 hstep
      cases h.requests u i _ hrunning with
      | statement _ _ keeps agrees hnext =>
        have hkept := keeps id s.tables tables next h.tables (fun _ hk => hk) hrun
        refine ⟨hkept.inv, System.put_requests (s := { s with tables := tables }) ?_ ?_⟩
        · exact fun v j r hr => (h.requests v j r hr).mono fun k hk => hkept.facts v k hk
        · exact hnext id s.tables tables next h.tables (fun _ hk => hk) hrun
    · cases hstep

variable (hfacts : ∀ u t t' k, Sees u t t' → Holds t' u k → Holds t u k)
include hfacts

/-- A run with the events of the other accounts left out is a run, in which the account sees
and is answered what it was. -/
theorem isolated (hsees : SeesSystem Sees u s s') (h : SystemInv Inv Holds Sees s)
    (h' : SystemInv Inv Holds Sees s') (hexec : exec (step handle) Always s es = some t) :
    ∃ t', exec (step handle) Always s' (only u es) = some t' ∧ SeesSystem Sees u t t' := by
  induction es generalizing s s' with
  | nil =>
    cases hexec
    exact ⟨s', rfl, hsees⟩
  | cons e es ih =>
    simp only [exec] at hexec
    obtain ⟨m, hm, ht⟩ := Option.bind_eq_some_iff.1 hexec
    have hinv := h.step hhandle hm
    by_cases hown : e.account = u
    · obtain ⟨m', hm', hsees'⟩ := hsees.own hfacts h h' hm hown
      obtain ⟨t', ht', hlast⟩ := ih hsees' hinv (h'.step hhandle hm') ht
      refine ⟨t', ?_, hlast⟩
      rw [only, List.filter_cons_of_pos (by simpa using hown)]
      simp only [exec, hm', Option.bind_some]
      exact ht'
    · rw [only, List.filter_cons_of_neg (by simpa using hown)]
      exact ih (hsees.other h hm hown) hinv h' ht

end Confined

end Tenants
