import Mathlib.Data.List.Nodup
import Subdux.Lib.Rows
import Subdux.Lib.Runs
/-!
# Rotating credentials

Items in chains. A chain starts with one live item; an exchange retires a live item
and adds a live one to its chain; any items can be retired at any time, and none
comes back to life. Then a chain has at most one live item (`RotationInv`), no item
is exchanged twice, and a chain without a live item stays without (`Dead`).
-/

namespace Rotation
open Rows Runs

structure Item where
  id : Nat
  chain : Nat
  live : Bool

/-- Ids are handed out once; `exchanged` lists the items that were exchanged. -/
structure State where
  items : List Item
  next : Nat
  exchanged : List Nat

inductive Op where
  | start
  | exchange (id : Nat)
  | retire (p : Item → Bool)

def retireWhere (p : Item → Bool) (items : List Item) : List Item :=
  updateWhere p ({ · with live := false }) items

def State.step (s : State) : Op → Option State
  | .start => some { s with items := s.items ++ [⟨s.next, s.next, true⟩], next := s.next + 1 }
  | .exchange id =>
    (s.items.find? fun item => item.id = id ∧ item.live).map fun item =>
      { items := retireWhere (·.id = id) s.items ++ [⟨s.next, item.chain, true⟩]
        next := s.next + 1
        exchanged := s.exchanged ++ [id] }
  | .retire p => some { s with items := retireWhere p s.items }

def State.empty (next : Nat) : State := ⟨[], next, []⟩

/-- The chain has items, none of them live. -/
def Dead (s : State) (chain : Nat) : Prop :=
  (∃ item ∈ s.items, item.chain = chain) ∧ ∀ item ∈ s.items, item.chain = chain → item.live = false

structure RotationInv (s : State) : Prop where
  ids : (s.items.map (·.id)).Nodup
  fresh : ∀ item ∈ s.items, item.id < s.next ∧ item.chain < s.next
  one : ∀ x ∈ s.items, ∀ y ∈ s.items, x.chain = y.chain → x.live = true → y.live = true → x.id = y.id
  once : s.exchanged.Nodup
  retired : ∀ id ∈ s.exchanged, id < s.next ∧ ∀ item ∈ s.items, item.id = id → item.live = false

section Retire
variable {p : Item → Bool} {items : List Item} {x : Item}

/-- A retired list holds the same items, some of them no longer live. -/
theorem mem_retireWhere (h : x ∈ retireWhere p items) :
    ∃ y ∈ items, y.id = x.id ∧ y.chain = x.chain ∧ (x.live = true → y.live = true ∧ p y = false) := by
  rcases mem_updateWhere_cases h with ⟨hx, hp⟩ | ⟨y, hy, -, rfl⟩
  · exact ⟨x, hx, rfl, rfl, fun hlive => ⟨hlive, hp⟩⟩
  · exact ⟨y, hy, rfl, rfl, by simp⟩

theorem mem_retireWhere_of {y : Item} (h : y ∈ items) :
    ∃ x ∈ retireWhere p items, x.id = y.id ∧ x.chain = y.chain := by
  cases hp : p y with
  | false => exact ⟨y, mem_updateWhere_of_not h hp, rfl, rfl⟩
  | true => exact ⟨_, mem_updateWhere_of h hp, rfl, rfl⟩

theorem retireWhere_ids : (retireWhere p items).map (·.id) = items.map (·.id) :=
  map_updateWhere Item.id fun _ => rfl

end Retire

section Steps
variable {s t : State} {op : Op}

theorem RotationInv.retire (h : RotationInv s) (p : Item → Bool) :
    RotationInv { s with items := retireWhere p s.items } where
  ids := by rw [retireWhere_ids]; exact h.ids
  fresh := by
    intro x hx
    obtain ⟨y, hy, hid, hchain, -⟩ := mem_retireWhere hx
    rw [← hid, ← hchain]
    exact h.fresh y hy
  one := by
    intro x hx y hy hchain hxlive hylive
    obtain ⟨x', hx', hxid, hxchain, hxl⟩ := mem_retireWhere hx
    obtain ⟨y', hy', hyid, hychain, hyl⟩ := mem_retireWhere hy
    rw [← hxid, ← hyid]
    exact h.one x' hx' y' hy' (hxchain.trans (hchain.trans hychain.symm)) (hxl hxlive).1 (hyl hylive).1
  once := h.once
  retired := by
    intro id hid
    refine ⟨(h.retired id hid).1, ?_⟩
    intro x hx hxid
    obtain ⟨y, hy, hyid, -, hlive⟩ := mem_retireWhere hx
    have hdead := (h.retired id hid).2 y hy (hyid.trans hxid)
    cases hx : x.live with
    | false => rfl
    | true => rw [(hlive hx).1] at hdead; cases hdead

/-- A new live item, in a chain without one. -/
theorem RotationInv.add (h : RotationInv s) {chain : Nat} (hchain : chain ≤ s.next)
    (hdead : ∀ item ∈ s.items, item.chain = chain → item.live = false) :
    RotationInv { s with items := s.items ++ [⟨s.next, chain, true⟩], next := s.next + 1 } where
  ids := by
    rw [List.map_append]
    refine List.nodup_append.2 ⟨h.ids, by simp, ?_⟩
    intro a ha b hb
    obtain ⟨x, hx, rfl⟩ := List.mem_map.1 ha
    obtain rfl : b = s.next := by simpa using hb
    exact (h.fresh x hx).1.ne
  fresh := by
    intro x hx
    rcases List.mem_append.1 hx with hx | hx
    · have := h.fresh x hx
      exact ⟨by dsimp only; omega, by dsimp only; omega⟩
    · obtain rfl := List.mem_singleton.1 hx
      exact ⟨by dsimp only; omega, by dsimp only; omega⟩
  one := by
    intro x hx y hy hxy hxlive hylive
    rcases List.mem_append.1 hx with hx | hx <;> rcases List.mem_append.1 hy with hy | hy
    · exact h.one x hx y hy hxy hxlive hylive
    · obtain rfl := List.mem_singleton.1 hy
      rw [hdead x hx hxy] at hxlive
      cases hxlive
    · obtain rfl := List.mem_singleton.1 hx
      rw [hdead y hy hxy.symm] at hylive
      cases hylive
    · rw [List.mem_singleton.1 hx, List.mem_singleton.1 hy]
  once := h.once
  retired := by
    intro id hid
    obtain ⟨hlt, hdead⟩ := h.retired id hid
    refine ⟨by dsimp only; omega, ?_⟩
    intro x hx hxid
    rcases List.mem_append.1 hx with hx | hx
    · exact hdead x hx hxid
    · obtain rfl := List.mem_singleton.1 hx
      dsimp only at hxid
      omega

theorem step_inv (h : RotationInv s) (hstep : s.step op = some t) : RotationInv t := by
  cases op with
  | start =>
    cases hstep
    refine h.add le_rfl ?_
    intro item hitem hchain
    have := (h.fresh item hitem).2
    omega
  | retire p =>
    cases hstep
    exact h.retire p
  | exchange id =>
    obtain ⟨item, hfind, rfl⟩ := Option.map_eq_some_iff.1 hstep
    have hitem := List.mem_of_find?_eq_some hfind
    obtain ⟨hid, hlive⟩ : item.id = id ∧ item.live = true := by simpa using List.find?_some hfind
    have hretired := h.retire (·.id = id)
    have hdead : ∀ x ∈ retireWhere (·.id = id) s.items, x.chain = item.chain → x.live = false := by
      intro x hx hchain
      obtain ⟨y, hy, -, hychain, hyl⟩ := mem_retireWhere hx
      cases hx : x.live with
      | false => rfl
      | true =>
        -- It would be the exchanged item, which is retired.
        have hsame := h.one y hy item hitem (hychain.trans hchain) (hyl hx).1 hlive
        have hnot : y.id ≠ id := by simpa using (hyl hx).2
        exact absurd (hsame.trans hid) hnot
    have hadd := hretired.add (h.fresh item hitem).2.le hdead
    have hfresh : id ∉ s.exchanged := by
      intro hmem
      have := (h.retired id hmem).2 item hitem hid
      rw [hlive] at this
      cases this
    refine ⟨hadd.ids, hadd.fresh, hadd.one, ?_, ?_⟩
    · refine List.nodup_append.2 ⟨h.once, by simp, ?_⟩
      intro a ha b hb
      obtain rfl := List.mem_singleton.1 hb
      rintro rfl
      exact hfresh ha
    · intro id' hid'
      rcases List.mem_append.1 hid' with hid' | hid'
      · exact hadd.retired id' hid'
      · obtain rfl := List.mem_singleton.1 hid'
        have hlt := (h.fresh item hitem).1
        refine ⟨by dsimp only; omega, ?_⟩
        intro x hx hxid
        rcases List.mem_append.1 hx with hx | hx
        · obtain ⟨y, hy, hyid, -, hyl⟩ := mem_retireWhere hx
          cases hxlive : x.live with
          | false => rfl
          | true => simpa [hyid, hxid] using (hyl hxlive).2
        · obtain rfl := List.mem_singleton.1 hx
          dsimp only at hxid
          omega

/-- A dead chain stays dead. -/
theorem step_dead (h : RotationInv s) (hstep : s.step op = some t) {chain : Nat}
    (hdead : Dead s chain) : Dead t chain := by
  obtain ⟨⟨item, hitem, hchain⟩, hall⟩ := hdead
  have hretire : ∀ p, Dead { s with items := retireWhere p s.items } chain := by
    intro p
    obtain ⟨x, hx, -, hxchain⟩ := @mem_retireWhere_of p _ _ hitem
    refine ⟨⟨x, hx, hxchain.trans hchain⟩, ?_⟩
    intro y hy hychain
    obtain ⟨z, hz, -, hzchain, hlive⟩ := mem_retireWhere hy
    cases hylive : y.live with
    | false => rfl
    | true =>
      have := hall z hz (hzchain.trans hychain)
      rw [(hlive hylive).1] at this
      cases this
  cases op with
  | start =>
    cases hstep
    refine ⟨⟨item, List.mem_append_left _ hitem, hchain⟩, ?_⟩
    intro x hx hxchain
    rcases List.mem_append.1 hx with hx | hx
    · exact hall x hx hxchain
    · obtain rfl := List.mem_singleton.1 hx
      have := (h.fresh item hitem).2
      dsimp only at hxchain
      omega
  | retire p =>
    cases hstep
    exact hretire p
  | exchange id =>
    obtain ⟨found, hfind, rfl⟩ := Option.map_eq_some_iff.1 hstep
    obtain ⟨-, hlive⟩ : found.id = id ∧ found.live = true := by simpa using List.find?_some hfind
    obtain ⟨⟨x, hx, hxchain⟩, hall'⟩ := hretire (·.id = id)
    refine ⟨⟨x, List.mem_append_left _ hx, hxchain⟩, ?_⟩
    intro y hy hychain
    rcases List.mem_append.1 hy with hy | hy
    · exact hall' y hy hychain
    · -- The new item is in the chain of a live one, which is not this chain.
      obtain rfl := List.mem_singleton.1 hy
      have := hall found (List.mem_of_find?_eq_some hfind) hychain
      rw [hlive] at this
      cases this

theorem inv_empty (next : Nat) : RotationInv (State.empty next) :=
  ⟨by simp [State.empty], by simp [State.empty], by simp [State.empty], by simp [State.empty],
    by simp [State.empty]⟩

end Steps

/-! ## Runs -/

section Runs
variable {ok : State → Op → Prop} {s t : State}

theorem path_inv (h : RotationInv s) (hpath : Path State.step ok s t) : RotationInv t :=
  hpath.invariant RotationInv (fun _ _ _ h _ hstep => step_inv h hstep) h

theorem path_dead (h : RotationInv s) (hpath : Path State.step ok s t) {chain : Nat}
    (hdead : Dead s chain) : Dead t chain :=
  hpath.relates RotationInv (fun s t => Dead s chain → Dead t chain) (fun _ => id)
    (fun _ _ _ h₁ h₂ => h₂ ∘ h₁)
    (fun _ _ _ h _ hstep => ⟨step_inv h hstep, step_dead h hstep⟩) h hdead

end Runs

end Rotation
