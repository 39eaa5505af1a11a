import Mathlib.Data.List.Nodup
import Mathlib.Logic.Function.Iterate
import Subdux.Lib.Runs
/-!
# Entries that are taken once

A store of entries under keys that are never issued twice: an entry may expire or be evicted at
any time, and taking it removes it. `Ledger store issued taken` relates the store to all that was
ever put in it and to the keys that were taken. `enforceLimit` evicts the oldest entries, as many
as it takes for one more to fit (`enforceLimit_length`).

What a process took it holds until it drops or retires it: `Custody held retired known` says that no
two processes hold a key, and that none holds a key that was retired.
-/

namespace SingleUse
variable {κ α : Type*}

abbrev Store (κ α : Type*) := List (κ × α)

section Operations
variable [DecidableEq κ]

def remove (k : κ) (store : Store κ α) : Store κ α := store.filter (·.1 ≠ k)

def put (k : κ) (a : α) (store : Store κ α) : Store κ α := remove k store ++ [(k, a)]

def lookup (k : κ) (store : Store κ α) : Option α := (store.find? (·.1 = k)).map (·.2)

/-- The key, where something is found under it. -/
def foundKey (k : κ) (store : Store κ α) : List κ := if (lookup k store).isSome then [k] else []

variable {k : κ} {a b : α} {store : Store κ α}

theorem mem_remove {e : κ × α} : e ∈ remove k store ↔ e ∈ store ∧ e.1 ≠ k := by
  rw [remove, List.mem_filter, decide_eq_true_iff]

theorem remove_subset (k : κ) (store : Store κ α) : remove k store ⊆ store :=
  fun _ he => (mem_remove.1 he).1

theorem mem_of_lookup (h : lookup k store = some a) : (k, a) ∈ store := by
  obtain ⟨e, he, rfl⟩ := Option.map_eq_some_iff.1 h
  have hkey : e.1 = k := by simpa using List.find?_some he
  have hmem := List.mem_of_find?_eq_some he
  rwa [← hkey]

theorem remove_of_lookup_none (h : lookup k store = none) : remove k store = store := by
  rw [lookup, Option.map_eq_none_iff, List.find?_eq_none] at h
  rw [remove, List.filter_eq_self]
  intro e he
  simpa using h e he

end Operations

/-! ## Eviction -/

section Eviction
variable [DecidableEq κ] (created : α → Int)

/-- One step of the search for the oldest entry. -/
def pickOldest (best : Option (κ × α)) (entry : κ × α) : Option (κ × α) :=
  match best with
  | none => some entry
  | some oldest => if created entry.2 < created oldest.2 then some entry else some oldest

def oldest (store : Store κ α) : Option (κ × α) := store.foldl (pickOldest created) none

def evictOldest (store : Store κ α) : Store κ α :=
  match oldest created store with
  | none => store
  | some entry => remove entry.1 store

def enforceLimit (limit : Nat) (store : Store κ α) : Store κ α :=
  (evictOldest created)^[store.length + 1 - limit] store

variable {created} {store : Store κ α} {limit : Nat}

omit [DecidableEq κ] in
theorem foldl_pickOldest (best : κ × α) :
    ∃ e, store.foldl (pickOldest created) (some best) = some e ∧ (e = best ∨ e ∈ store) := by
  induction store generalizing best with
  | nil => exact ⟨best, rfl, .inl rfl⟩
  | cons x store ih =>
    rw [List.foldl_cons]
    by_cases holder : created x.2 < created best.2
    · rw [pickOldest, if_pos holder]
      obtain ⟨e, he, rfl | hmem⟩ := ih x
      · exact ⟨e, he, .inr List.mem_cons_self⟩
      · exact ⟨e, he, .inr (List.mem_cons_of_mem x hmem)⟩
    · rw [pickOldest, if_neg holder]
      obtain ⟨e, he, rfl | hmem⟩ := ih best
      · exact ⟨e, he, .inl rfl⟩
      · exact ⟨e, he, .inr (List.mem_cons_of_mem x hmem)⟩

omit [DecidableEq κ] in
/-- A store that is not empty has an oldest entry. -/
theorem oldest_mem (h : store ≠ []) : ∃ e ∈ store, oldest created store = some e := by
  cases store with
  | nil => exact absurd rfl h
  | cons x store =>
    obtain ⟨e, he, rfl | hmem⟩ : ∃ e, store.foldl (pickOldest created) (some x) = some e ∧
        (e = x ∨ e ∈ store) := foldl_pickOldest x
    · exact ⟨e, List.mem_cons_self, he⟩
    · exact ⟨e, List.mem_cons_of_mem x hmem, he⟩

theorem evictOldest_subset (store : Store κ α) : evictOldest created store ⊆ store := by
  rw [evictOldest]
  split
  · exact List.Subset.refl store
  · exact remove_subset _ store

theorem evictOldest_length (store : Store κ α) :
    (evictOldest created store).length ≤ store.length - 1 := by
  by_cases hne : store = []
  · subst hne
    exact Nat.le_refl 0
  · obtain ⟨e, he, holdest⟩ : ∃ e ∈ store, oldest created store = some e := oldest_mem hne
    rw [evictOldest, holdest]
    have hlt : (remove e.1 store).length < store.length := by
      rw [remove, List.length_filter_lt_length_iff_exists]
      exact ⟨e, he, by simp⟩
    dsimp only
    omega

theorem iterate_evictOldest (n : Nat) (store : Store κ α) :
    (evictOldest created)^[n] store ⊆ store ∧
    ((evictOldest created)^[n] store).length ≤ store.length - n := by
  induction n generalizing store with
  | zero => exact ⟨List.Subset.refl store, Nat.le_refl _⟩
  | succ n ih =>
    rw [Function.iterate_succ_apply]
    obtain ⟨hsub, hlen⟩ := ih (evictOldest created store)
    have hone : (evictOldest created store).length ≤ store.length - 1 := evictOldest_length store
    exact ⟨List.Subset.trans hsub (evictOldest_subset store), by omega⟩

theorem enforceLimit_subset (limit : Nat) (store : Store κ α) :
    enforceLimit created limit store ⊆ store :=
  (iterate_evictOldest _ store).1

/-- One more entry fits. -/
theorem enforceLimit_length (hlimit : 0 < limit) (store : Store κ α) :
    (enforceLimit created limit store).length < limit := by
  have hlen : ((evictOldest created)^[store.length + 1 - limit] store).length ≤ store.length -
      (store.length + 1 - limit) :=
    (iterate_evictOldest _ store).2
  rw [enforceLimit]
  omega

theorem put_enforceLimit_length (hlimit : 0 < limit) (k : κ) (a : α) (store : Store κ α) :
    (put k a (enforceLimit created limit store)).length ≤ limit := by
  have hlt : (enforceLimit created limit store).length < limit := enforceLimit_length hlimit store
  have hle : (remove k (enforceLimit created limit store)).length ≤
      (enforceLimit created limit store).length :=
    List.length_filter_le _ _
  rw [put, List.length_append, List.length_singleton]
  omega

end Eviction

/-! ## What was issued and what was taken -/

structure Ledger (store issued : Store κ α) (taken : List κ) : Prop where
  keys : (issued.map (·.1)).Nodup
  stored : store ⊆ issued
  known : taken ⊆ issued.map (·.1)
  once : taken.Nodup
  gone : ∀ e ∈ store, e.1 ∉ taken

namespace Ledger
variable {store kept issued : Store κ α} {taken : List κ} {k : κ} {a b : α}

theorem empty : Ledger ([] : Store κ α) [] [] :=
  ⟨List.nodup_nil, List.Subset.refl _, List.Subset.refl _, List.nodup_nil, fun _ he =>
    absurd he List.not_mem_nil⟩

/-- Entries are lost. -/
theorem lose (h : Ledger store issued taken) (hsub : kept ⊆ store) : Ledger kept issued taken :=
  ⟨h.keys, List.Subset.trans hsub h.stored, h.known, h.once, fun e he => h.gone e (hsub he)⟩

/-- What was issued under a key. -/
theorem unique (h : Ledger store issued taken) (ha : (k, a) ∈ issued) (hb : (k, b) ∈ issued) : a = b :=
  (Prod.ext_iff.1 (List.inj_on_of_nodup_map h.keys ha hb rfl)).2

variable [DecidableEq κ]

/-- An entry is put under a key that was never issued. -/
theorem issue (h : Ledger store issued taken) (hfresh : k ∉ issued.map (·.1)) (a : α) :
    Ledger (put k a store) (issued ++ [(k, a)]) taken := by
  refine ⟨?_, ?_, fun x hx => List.mem_map.2 ?_, h.once, ?_⟩
  · rw [List.map_append, List.map_singleton, List.nodup_append]
    refine ⟨h.keys, List.nodup_singleton k, ?_⟩
    rintro x hx _ hnew rfl
    rw [List.mem_singleton.1 hnew] at hx
    exact hfresh hx
  · intro e he
    rcases List.mem_append.1 he with he | he
    · exact List.mem_append_left _ (h.stored (remove_subset k store he))
    · exact List.mem_append_right _ he
  · obtain ⟨e, he, rfl⟩ := List.mem_map.1 (h.known hx)
    exact ⟨e, List.mem_append_left _ he, rfl⟩
  · intro e he
    rcases List.mem_append.1 he with he | he
    · exact h.gone e (remove_subset k store he)
    · rw [List.mem_singleton.1 he]
      exact fun htaken => hfresh (h.known htaken)

/-- An entry is taken. -/
theorem take (h : Ledger store issued taken) (hmem : (k, a) ∈ store) :
    Ledger (remove k store) issued (taken ++ [k]) := by
  refine ⟨h.keys, (List.Subset.trans (remove_subset k store) h.stored), ?_, ?_, ?_⟩
  · intro x hx
    rcases List.mem_append.1 hx with hx | hx
    · exact h.known hx
    · rw [List.mem_singleton.1 hx]
      exact List.mem_map.2 ⟨(k, a), h.stored hmem, rfl⟩
  · refine List.nodup_append.2 ⟨h.once, List.nodup_singleton k, ?_⟩
    rintro x hx _ hnew rfl
    rw [List.mem_singleton.1 hnew] at hx
    exact h.gone (k, a) hmem hx
  · intro e he htaken
    obtain ⟨hold, hne⟩ := mem_remove.1 he
    rcases List.mem_append.1 htaken with htaken | htaken
    · exact h.gone e hold htaken
    · exact hne (List.mem_singleton.1 htaken)

/-- What is found under a key is taken. -/
theorem takeFound (h : Ledger store issued taken) (k : κ) :
    Ledger (remove k store) issued (taken ++ foundKey k store) := by
  cases hfind : lookup k store with
  | none =>
    rw [foundKey, hfind, remove_of_lookup_none hfind, Option.isSome_none, if_neg Bool.false_ne_true,
      List.append_nil]
    exact h
  | some a =>
    rw [foundKey, hfind, Option.isSome_some, if_pos rfl]
    exact h.take (mem_of_lookup hfind)

end Ledger

/-! ## Who holds what was taken -/

structure Custody (held : Nat → Option κ) (retired : List κ) (known : κ → Prop) : Prop where
  holds : ∀ i k, held i = some k → known k
  past : ∀ k ∈ retired, known k
  alone : ∀ i j k, held i = some k → held j = some k → i = j
  once : retired.Nodup
  active : ∀ i k, held i = some k → k ∉ retired

/-- What the processes hold, after one of them moves. -/
theorem bind_set {π : Type*} (procs : Nat → Option π) (i : Nat) (p : Option π) (f : π → Option κ) :
    (fun j => (Runs.set procs i p j).bind f) = Runs.set (fun j => (procs j).bind f) i (p.bind f) := by
  funext j
  by_cases hj : j = i
  · subst hj
    rw [Runs.set_self, Runs.set_self]
  · rw [Runs.set_of_ne _ _ hj, Runs.set_of_ne _ _ hj]

namespace Custody
variable {held : Nat → Option κ} {retired : List κ} {known known' : κ → Prop} {i : Nat} {k : κ}

theorem empty : Custody (fun _ => none) ([] : List κ) known where
  holds _ _ h := by cases h
  past _ h := absurd h List.not_mem_nil
  alone _ _ _ h := by cases h
  once := List.nodup_nil
  active _ _ h := by cases h

theorem mono (h : Custody held retired known) (hle : ∀ k, known k → known' k) :
    Custody held retired known' :=
  ⟨fun i k hk => hle k (h.holds i k hk), fun k hk => hle k (h.past k hk), h.alone, h.once, h.active⟩

/-- A process goes on with what it holds, or drops it. -/
theorem keep (h : Custody held retired known) {p : Option κ} (hp : ∀ k, p = some k → held i = some k) :
    Custody (Runs.set held i p) retired known where
  holds := Runs.forall_set h.holds fun k hk => h.holds i k (hp k hk)
  past := h.past
  alone := by
    have hheld : ∀ j k, Runs.set held i p j = some k → held j = some k :=
      Runs.forall_set (fun _ _ hk => hk) hp
    exact fun j l k hj hl => h.alone j l k (hheld j k hj) (hheld l k hl)
  once := h.once
  active := Runs.forall_set h.active fun k hk => h.active i k (hp k hk)

/-- A process takes a key that was not known. -/
theorem acquire (h : Custody held retired known) (hnew : ¬ known k) (hle : ∀ x, known x → known' x)
    (hk : known' k) :
    Custody (Runs.set held i (some k)) retired known' where
  holds := Runs.forall_set (fun j x hx => hle x (h.holds j x hx)) fun x hx => Option.some.inj hx ▸ hk
  past x hx := hle x (h.past x hx)
  alone j l x hj hl := by
    have hother : ∀ j, j ≠ i → Runs.set held i (some k) j ≠ some k := fun j hne heq => by
      rw [Runs.set_of_ne _ _ hne] at heq
      exact hnew (h.holds j k heq)
    by_cases hji : j = i <;> by_cases hli : l = i
    · exact hji.trans hli.symm
    · subst hji
      rw [Runs.set_self] at hj
      obtain rfl := Option.some.inj hj
      exact absurd hl (hother l hli)
    · subst hli
      rw [Runs.set_self] at hl
      obtain rfl := Option.some.inj hl
      exact absurd hj (hother j hji)
    · rw [Runs.set_of_ne _ _ hji] at hj
      rw [Runs.set_of_ne _ _ hli] at hl
      exact h.alone j l x hj hl
  once := h.once
  active := Runs.forall_set h.active fun x hx hretired => hnew (Option.some.inj hx ▸ h.past x hretired)

/-- A process retires what it holds. -/
theorem retire (h : Custody held retired known) (hi : held i = some k) :
    Custody (Runs.set held i none) (retired ++ [k]) known := by
  have hdrop : Custody (Runs.set held i none) retired known := h.keep fun x hx => by cases hx
  refine ⟨hdrop.holds, ?_, hdrop.alone, ?_, ?_⟩
  · intro x hx
    rcases List.mem_append.1 hx with hx | hx
    · exact h.past x hx
    · rw [List.mem_singleton.1 hx]
      exact h.holds i k hi
  · refine List.nodup_append.2 ⟨h.once, List.nodup_singleton k, ?_⟩
    rintro x hx _ hnew rfl
    rw [List.mem_singleton.1 hnew] at hx
    exact h.active i k hi hx
  · intro j x hj hx
    rcases List.mem_append.1 hx with hx | hx
    · exact hdrop.active j x hj hx
    · rw [List.mem_singleton.1 hx] at hj
      by_cases hji : j = i
      · rw [hji, Runs.set_self] at hj
        cases hj
      · rw [Runs.set_of_ne _ _ hji] at hj
        exact hji (h.alone j i k hj hi)

end Custody

end SingleUse
