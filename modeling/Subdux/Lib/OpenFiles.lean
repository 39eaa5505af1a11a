import Mathlib.Logic.Function.Basic
/-!
# Names, nodes and open files

Files as a file system keeps them: a name leads to a node and a node has bytes. An open file
stays with its node, whatever becomes of the name. Names do not share nodes, so what is done
at one name leaves the files of the others alone (`Touches`), and so does writing through an
open file whose node no other name leads to (`OnlyAt`). `Apart.change`: how files stay with those
who have them.
-/

structure Files where
  nodes : String → Option Nat
  contents : Nat → List UInt8
  fresh : Nat
  below : ∀ p n, nodes p = some n → n < fresh
  single : ∀ p q n, nodes p = some n → nodes q = some n → p = q

namespace Files

def empty : Files := ⟨fun _ => none, fun _ => [], 0, by simp, by simp⟩

def read (fs : Files) (p : String) : Option (List UInt8) := (fs.nodes p).map fs.contents

/-- A new file at `p`. -/
def put (fs : Files) (p : String) (content : List UInt8) : Files where
  nodes := Function.update fs.nodes p (some fs.fresh)
  contents := Function.update fs.contents fs.fresh content
  fresh := fs.fresh + 1
  below := by
    intro q n hq
    by_cases hqp : q = p
    · subst hqp
      rw [Function.update_self] at hq
      have := Option.some.inj hq
      omega
    · rw [Function.update_of_ne hqp] at hq
      exact Nat.lt_succ_of_lt (fs.below q n hq)
  single := by
    intro q r n hq hr
    by_cases hqp : q = p
    · by_cases hrp : r = p
      · rw [hqp, hrp]
      · rw [hqp, Function.update_self] at hq
        rw [Function.update_of_ne hrp] at hr
        have := fs.below r n hr
        have := Option.some.inj hq
        omega
    · rw [Function.update_of_ne hqp] at hq
      by_cases hrp : r = p
      · rw [hrp, Function.update_self] at hr
        have := fs.below q n hq
        have := Option.some.inj hr
        omega
      · rw [Function.update_of_ne hrp] at hr
        exact fs.single q r n hq hr

/-- The bytes of a node change. -/
def setContents (fs : Files) (n : Nat) (content : List UInt8) : Files :=
  { fs with contents := Function.update fs.contents n content }

/-- Creates the file or cuts it to nothing, and opens it. -/
def create (fs : Files) (p : String) : Files × Nat :=
  match fs.nodes p with
  | some n => (fs.setContents n [], n)
  | none => (fs.put p [], fs.fresh)

def remove (fs : Files) (p : String) : Files where
  nodes := Function.update fs.nodes p none
  contents := fs.contents
  fresh := fs.fresh
  below := by
    intro q n hq
    by_cases hqp : q = p
    · subst hqp
      rw [Function.update_self] at hq
      cases hq
    · rw [Function.update_of_ne hqp] at hq
      exact fs.below q n hq
  single := by
    intro q r n hq hr
    by_cases hqp : q = p
    · subst hqp
      rw [Function.update_self] at hq
      cases hq
    by_cases hrp : r = p
    · subst hrp
      rw [Function.update_self] at hr
      cases hr
    rw [Function.update_of_ne hqp] at hq
    rw [Function.update_of_ne hrp] at hr
    exact fs.single q r n hq hr

/-- Bytes written over a text from an offset on; a gap before it is filled with zeros. -/
def overlay (content : List UInt8) (offset : Nat) (bytes : List UInt8) : List UInt8 :=
  content.take offset ++ List.replicate (offset - content.length) 0 ++ bytes ++ content.drop
    (offset + bytes.length)

/-- Writes through an open file. -/
def write (fs : Files) (n offset : Nat) (bytes : List UInt8) : Files :=
  fs.setContents n (overlay (fs.contents n) offset bytes)

/-- No name but `p` leads to the node. -/
def OnlyAt (fs : Files) (n : Nat) (p : String) : Prop := n < fs.fresh ∧ ∀ q, fs.nodes q = some n → q = p

variable {fs : Files} {p q : String} {n m offset : Nat} {content bytes : List UInt8}

theorem overlay_length (content bytes : List UInt8) :
    overlay content content.length bytes = content ++ bytes := by
  rw [overlay, List.take_length, Nat.sub_self, List.replicate_zero, List.append_nil,
    List.drop_eq_nil_of_le (by omega),
    List.append_nil]

theorem read_of_nodes (h : fs.nodes p = some n) : fs.read p = some (fs.contents n) := by
  rw [read, h, Option.map_some]

theorem read_put_self : (fs.put p content).read p = some content := by
  rw [read_of_nodes (show (fs.put p content).nodes p = some fs.fresh from Function.update_self ..)]
  exact congrArg some (Function.update_self ..)

theorem create_nodes (fs : Files) (p : String) : (fs.create p).1.nodes p = some (fs.create p).2 := by
  rw [create]
  cases hp : fs.nodes p with
  | some n => exact hp
  | none => exact Function.update_self ..

theorem create_contents (fs : Files) (p : String) : (fs.create p).1.contents (fs.create p).2 = [] := by
  rw [create]
  cases fs.nodes p with
  | some n => exact Function.update_self ..
  | none => exact Function.update_self ..

theorem contents_write_end :
    (fs.write n (fs.contents n).length bytes).contents n = fs.contents n ++ bytes := by
  rw [← overlay_length]
  exact Function.update_self ..

/-! ## What an operation leaves alone -/

/-- All that happens to the files happens at `p`. -/
structure Touches (fs fs' : Files) (p : String) : Prop where
  nodes : ∀ q, q ≠ p → fs'.nodes q = fs.nodes q
  read : ∀ q, q ≠ p → fs'.read q = fs.read q
  only : ∀ n q, fs.OnlyAt n q → fs'.OnlyAt n q

theorem touches_refl (fs : Files) (p : String) : Touches fs fs p :=
  ⟨fun _ _ => rfl, fun _ _ => rfl, fun _ _ h => h⟩

theorem touches_put (fs : Files) (p : String) (content : List UInt8) :
    Touches fs (fs.put p content) p where
  nodes := fun _ hq => Function.update_of_ne hq ..
  read := by
    intro q hq
    rw [Files.read, Files.read,
      show (fs.put p content).nodes q = fs.nodes q from Function.update_of_ne hq ..]
    cases hnode : fs.nodes q with
    | none => rfl
    | some n =>
      have hlt := fs.below q n hnode
      exact congrArg some (Function.update_of_ne (by omega) ..)
  only := by
    intro n q h
    refine ⟨Nat.lt_succ_of_lt h.1, fun r hr => ?_⟩
    by_cases hrp : r = p
    · rw [hrp, show (fs.put p content).nodes p = some fs.fresh from Function.update_self ..] at hr
      have hlt := h.1
      have := Option.some.inj hr
      omega
    · rw [show (fs.put p content).nodes r = fs.nodes r from Function.update_of_ne hrp ..] at hr
      exact h.2 r hr

/-- Writing to a node that only `p` leads to. -/
theorem touches_setContents (h : ∀ q, fs.nodes q = some n → q = p) :
    Touches fs (fs.setContents n content) p where
  nodes := fun _ _ => rfl
  read := by
    intro q hq
    rw [Files.read, Files.read]
    show (fs.nodes q).map (Function.update fs.contents n content) = _
    cases hnode : fs.nodes q with
    | none => rfl
    | some m =>
      have hne : m ≠ n := fun heq => hq (h q (heq ▸ hnode))
      exact congrArg some (Function.update_of_ne hne ..)
  only := fun _ _ h => h

theorem touches_create (fs : Files) (p : String) : Touches fs (fs.create p).1 p := by
  rw [create]
  cases hp : fs.nodes p with
  | some n => exact touches_setContents fun q hq => fs.single q p n hq hp
  | none => exact touches_put fs p []

theorem touches_remove (fs : Files) (p : String) : Touches fs (fs.remove p) p where
  nodes := fun _ hq => Function.update_of_ne hq ..
  read := by
    intro q hq
    rw [Files.read, Files.read, show (fs.remove p).nodes q = fs.nodes q from Function.update_of_ne hq ..]
    rfl
  only := by
    intro n q h
    refine ⟨h.1, fun r hr => ?_⟩
    by_cases hrp : r = p
    · rw [hrp, show (fs.remove p).nodes p = none from Function.update_self ..] at hr
      cases hr
    · rw [show (fs.remove p).nodes r = fs.nodes r from Function.update_of_ne hrp ..] at hr
      exact h.2 r hr

theorem touches_write (h : fs.OnlyAt n p) : Touches fs (fs.write n offset bytes) p :=
  touches_setContents h.2

theorem onlyAt_create (fs : Files) (p : String) : (fs.create p).1.OnlyAt (fs.create p).2 p := by
  have hnodes := create_nodes fs p
  exact ⟨(fs.create p).1.below p _ hnodes, fun q hq => (fs.create p).1.single q p _ hq hnodes⟩

/-! ## Who has which file -/

section Claims
variable {ι : Type*} {claim claim' : ι → Option String} {i : ι}

/-- No two have the same file. -/
def Apart (claim : ι → Option String) : Prop := ∀ i j p, claim i = some p → claim j = some p → i = j

/-- One of them takes a file that nobody else has, keeps its own or lets go of it. -/
theorem Apart.change (h : Apart claim) (hother : ∀ j, j ≠ i → claim' j = claim j)
    (hown : ∀ p, claim' i = some p → claim i = some p ∨ ∀ j, j ≠ i → claim j ≠ some p) :
    Apart claim' := by
  have hmeet : ∀ j p, j ≠ i → claim' i = some p → claim' j = some p → False := by
    intro j p hj hi hjp
    rw [hother j hj] at hjp
    rcases hown p hi with hi | hnobody
    · exact hj (h j i p hjp hi)
    · exact hnobody j hj hjp
  intro j k p hj hk
  by_cases hji : j = i
  · by_cases hki : k = i
    · rw [hji, hki]
    · exact (hmeet k p hki (hji ▸ hj) hk).elim
  by_cases hki : k = i
  · exact (hmeet j p hji (hki ▸ hk) hj).elim
  · rw [hother j hji] at hj
    rw [hother k hki] at hk
    exact h j k p hj hk

end Claims

end Files
