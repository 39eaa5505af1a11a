import Mathlib.Data.List.Sort
import Mathlib.Data.String.Basic
/-!
# JSON texts

The values of JSON, the text that `write` gives a value, with the escapes of an
encoder that keeps its output safe inside HTML, and `read`, which reads such texts
(no white space, no surrogate pairs). `read_write` says that a value comes back from
its text, so that different values have different texts (`write_injective`).
-/

namespace JsonText

/-! ## Values -/

def isNumberChar (c : Char) : Bool := c.isDigit || c ∈ ['-', '+', '.', 'e', 'E']

/-- The text of a number. -/
def IsNumber (cs : List Char) : Prop :=
  cs.all isNumberChar ∧ (cs.head?.any fun c => c.isDigit || c = '-')

instance (cs : List Char) : Decidable (IsNumber cs) := inferInstanceAs (Decidable (_ ∧ _))

/-- A number is the text that it is written as. -/
structure Number where
  text : List Char
  isNumber : IsNumber text

/-- A value. The fields of an object stand in the order they are written in. -/
inductive Json where
  | null
  | bool (b : Bool)
  | num (n : Number)
  | str (s : String)
  | arr (items : List Json)
  | obj (fields : List (String × Json))

/-! ## Writing -/

def hexDigit (n : Nat) : Char := Char.ofNat (if n < 10 then 48 + n else 87 + n)

def hex4 (n : Nat) : List Char :=
  [hexDigit (n / 4096 % 16), hexDigit (n / 256 % 16), hexDigit (n / 16 % 16), hexDigit (n % 16)]

def escapeChar (c : Char) : List Char :=
  if c = '"' then ['\\', '"']
  else if c = '\\' then ['\\', '\\']
  else if c.toNat = 8 then ['\\', 'b']
  else if c.toNat = 12 then ['\\', 'f']
  else if c = '\n' then ['\\', 'n']
  else if c = '\r' then ['\\', 'r']
  else if c = '\t' then ['\\', 't']
  else if c.toNat < 32 ∨ c ∈ ['<', '>', '&'] ∨ c.toNat = 0x2028 ∨ c.toNat = 0x2029 then
    '\\' :: 'u' :: hex4 c.toNat
  else [c]

/-- A string, without the quote that opens it. -/
def writeString (s : String) : List Char := s.toList.flatMap escapeChar ++ ['"']

mutual

def write : Json → List Char
  | .null => ['n', 'u', 'l', 'l']
  | .bool true => ['t', 'r', 'u', 'e']
  | .bool false => ['f', 'a', 'l', 's', 'e']
  | .num n => n.text
  | .str s => '"' :: writeString s
  | .arr [] => ['[', ']']
  | .arr (v :: vs) => '[' :: (write v ++ writeItems vs)
  | .obj [] => ['{', '}']
  | .obj ((k, v) :: fs) => '{' :: '"' :: (writeString k ++ ':' :: (write v ++ writeFields fs))

/-- The items after the first. -/
def writeItems : List Json → List Char
  | [] => [']']
  | v :: vs => ',' :: (write v ++ writeItems vs)

/-- The fields after the first. -/
def writeFields : List (String × Json) → List Char
  | [] => ['}']
  | (k, v) :: fs => ',' :: '"' :: (writeString k ++ ':' :: (write v ++ writeFields fs))

end

/-! ## Reading -/

def hexValue (c : Char) : Option Nat :=
  if '0' ≤ c ∧ c ≤ '9' then some (c.toNat - 48)
  else if 'a' ≤ c ∧ c ≤ 'f' then some (c.toNat - 87)
  else if 'A' ≤ c ∧ c ≤ 'F' then some (c.toNat - 55)
  else none

def readHex4 (a b c d : Char) : Option Char := do
  let n := 4096 * (← hexValue a) + 256 * (← hexValue b) + 16 * (← hexValue c) + (← hexValue d)
  return Char.ofNat n

def unescape (c : Char) : Option Char :=
  if c = '"' ∨ c = '\\' ∨ c = '/' then some c
  else if c = 'b' then some (Char.ofNat 8)
  else if c = 'f' then some (Char.ofNat 12)
  else if c = 'n' then some '\n'
  else if c = 'r' then some '\r'
  else if c = 't' then some '\t'
  else none

/-- The characters up to the closing quote, and what follows it. -/
def readChars : List Char → Option (List Char × List Char)
  | [] => none
  | '"' :: cs => some ([], cs)
  | '\\' :: 'u' :: a :: b :: c :: d :: cs =>
    (readHex4 a b c d).bind fun x => (readChars cs).map fun (s, rest) => (x :: s, rest)
  | '\\' :: c :: cs => (unescape c).bind fun x => (readChars cs).map fun (s, rest) => (x :: s, rest)
  | c :: cs => (readChars cs).map fun (s, rest) => (c :: s, rest)

def readString (cs : List Char) : Option (String × List Char) :=
  (readChars cs).map fun (s, rest) => (String.ofList s, rest)

/-- `some rest` when `cs` is `word ++ rest`. -/
def readWord : List Char → List Char → Option (List Char)
  | [], cs => some cs
  | w :: word, c :: cs => if c = w then readWord word cs else none
  | _ :: _, [] => none

def readNumber (cs : List Char) : Option (Number × List Char) :=
  if h : IsNumber (cs.takeWhile isNumberChar)
    then some (⟨cs.takeWhile isNumberChar, h⟩, cs.dropWhile isNumberChar) else none

mutual

/-- A value and what follows it. -/
def readValue : Nat → List Char → Option (Json × List Char)
  | 0, _ => none
  | _, [] => none
  | fuel + 1, c :: cs =>
    if c = 'n' then (readWord ['u', 'l', 'l'] cs).map fun rest => (.null, rest)
    else if c = 't' then (readWord ['r', 'u', 'e'] cs).map fun rest => (.bool true, rest)
    else if c = 'f' then (readWord ['a', 'l', 's', 'e'] cs).map fun rest => (.bool false, rest)
    else if c = '"' then (readString cs).map fun (s, rest) => (.str s, rest)
    else if c = '[' then
      if cs.head? = some ']' then some (.arr [], cs.tail)
      else (readValue fuel cs).bind fun (v, cs) => (readItems fuel cs).map fun (vs, rest) =>
        (.arr (v :: vs), rest)
    else if c = '{' then
      if cs.head? = some '}' then some (.obj [], cs.tail)
      else (readField fuel cs).bind fun (f, cs) => (readFields fuel cs).map fun (fs, rest) =>
        (.obj (f :: fs), rest)
    else (readNumber (c :: cs)).map fun (n, rest) => (.num n, rest)

/-- The items after the first. -/
def readItems : Nat → List Char → Option (List Json × List Char)
  | 0, _ => none
  | fuel + 1, ',' :: cs =>
    (readValue fuel cs).bind fun (v, cs) => (readItems fuel cs).map fun (vs, rest) => (v :: vs, rest)
  | _, ']' :: rest => some ([], rest)
  | _, _ => none

def readField : Nat → List Char → Option ((String × Json) × List Char)
  | 0, _ => none
  | fuel + 1, '"' :: cs => (readString cs).bind fun (k, cs) =>
    match cs with
    | ':' :: cs => (readValue fuel cs).map fun (v, rest) => ((k, v), rest)
    | _ => none
  | _, _ => none

/-- The fields after the first. -/
def readFields : Nat → List Char → Option (List (String × Json) × List Char)
  | 0, _ => none
  | fuel + 1, ',' :: cs =>
    (readField fuel cs).bind fun (f, cs) => (readFields fuel cs).map fun (fs, rest) => (f :: fs, rest)
  | _, '}' :: rest => some ([], rest)
  | _, _ => none

end

/-- The value of a whole text. -/
def read (cs : List Char) : Option Json :=
  match readValue cs.length cs with
  | some (v, []) => some v
  | _ => none

/-! ## Strings are read back -/

section Strings
variable {c : Char} {rest : List Char}

theorem hexValue_hexDigit : ∀ n < 16, hexValue (hexDigit n) = some n := by decide

theorem readHex4_hex4 {n : Nat} (h : n < 65536) : (match hex4 n with
    | [a, b, c, d] => readHex4 a b c d
    | _ => none) = some (Char.ofNat n) := by
  have hmod : ∀ m, m % 16 < 16 := fun m => Nat.mod_lt m (by decide)
  simp only [hex4, readHex4, hexValue_hexDigit _ (hmod _), Option.bind_eq_bind, Option.bind_some, pure]
  congr 2
  omega

theorem escapeChar_code
    (h : c.toNat < 32 ∨ c ∈ ['<', '>', '&'] ∨ c.toNat = 0x2028 ∨ c.toNat = 0x2029) :
    c.toNat < 65536 := by
  rcases h with h | h | h | h
  · omega
  · simp only [List.mem_cons, List.not_mem_nil, or_false] at h
    rcases h with rfl | rfl | rfl <;> simp
  · omega
  · omega

/-- A character is read back from its escape. -/
theorem readChars_escapeChar (c : Char) (rest : List Char) :
    readChars (escapeChar c ++ rest) = (readChars rest).map fun (s, rest) => (c :: s, rest) := by
  have hnat : ∀ n, c.toNat = n → c = Char.ofNat n := fun n h => by rw [← h, Char.ofNat_toNat]
  unfold escapeChar
  split_ifs with h1 h2 h3 h4 h5 h6 h7 h8
  · subst h1; rfl
  · subst h2; rfl
  · obtain rfl := hnat 8 h3; rfl
  · obtain rfl := hnat 12 h4; rfl
  · subst h5; rfl
  · subst h6; rfl
  · subst h7; rfl
  · have hread := readHex4_hex4 (escapeChar_code h8)
    rw [Char.ofNat_toNat] at hread
    simp only [hex4, List.cons_append, List.nil_append] at hread ⊢
    rw [readChars, hread, Option.bind_some]
  · rw [List.cons_append, List.nil_append, readChars.eq_def]
    split <;> simp_all

theorem readString_writeString (s : String) (rest : List Char) :
    readString (writeString s ++ rest) = some (s, rest) := by
  have hchars : ∀ cs : List Char, readChars (cs.flatMap escapeChar ++ '"' :: rest) = some
      (cs, rest) := by
    intro cs
    induction cs with
    | nil => rfl
    | cons c cs ih =>
      rw [List.flatMap_cons, List.append_assoc, readChars_escapeChar, ih, Option.map_some]
  rw [readString, writeString, List.append_assoc, List.singleton_append, hchars, Option.map_some]
  simp only [String.ofList_toList]

end Strings

/-! ## Values are read back -/

/-- What follows a value does not go on with a number. -/
def EndsNumber (rest : List Char) : Prop := ∀ c ∈ rest.head?, isNumberChar c = false

theorem readNumber_text (n : Number) {rest : List Char} (h : EndsNumber rest) :
    readNumber (n.text ++ rest) = some (n, rest) := by
  have hall : ∀ c ∈ n.text, isNumberChar c = true := List.all_eq_true.1 n.isNumber.1
  have hrest : rest.takeWhile isNumberChar = [] ∧ rest.dropWhile isNumberChar = rest := by
    cases rest with
    | nil => exact ⟨rfl, rfl⟩
    | cons c cs => simp [h c rfl]
  have htake : (n.text ++ rest).takeWhile isNumberChar = n.text := by
    rw [List.takeWhile_append_of_pos hall, hrest.1, List.append_nil]
  have hdrop : (n.text ++ rest).dropWhile isNumberChar = rest := by
    rw [List.dropWhile_append_of_pos hall, hrest.2]
  rw [readNumber, dif_pos (by rw [htake]; exact n.isNumber)]
  simp only [htake, hdrop]

mutual

/-- The fuel that reading back takes. -/
def size : Json → Nat
  | .arr [] => 1
  | .arr (v :: vs) => size v + sizeItems vs + 1
  | .obj [] => 1
  | .obj ((_, v) :: fs) => size v + sizeFields fs + 2
  | _ => 1

def sizeItems : List Json → Nat
  | [] => 1
  | v :: vs => size v + sizeItems vs + 1

def sizeFields : List (String × Json) → Nat
  | [] => 1
  | (_, v) :: fs => size v + sizeFields fs + 2

end

theorem one_le_size (v : Json) : 1 ≤ size v := by
  match v with
  | .null | .bool _ | .num _ | .str _ | .arr [] | .obj [] => exact le_rfl
  | .arr (_ :: _) | .obj (_ :: _) =>
    simp only [size]
    omega

theorem endsNumber_cons {c : Char} (h : isNumberChar c = false) (cs : List Char) :
    EndsNumber (c :: cs) := by
  intro d hd
  obtain rfl := Option.some.inj hd
  exact h

theorem endsNumber_writeItems (vs : List Json) (rest : List Char) :
    EndsNumber (writeItems vs ++ rest) := by
  cases vs with
  | nil => exact endsNumber_cons (by decide) _
  | cons v vs => exact endsNumber_cons (by decide) _

theorem endsNumber_writeFields (fs : List (String × Json)) (rest : List Char) :
    EndsNumber (writeFields fs ++ rest) := by
  cases fs with
  | nil => exact endsNumber_cons (by decide) _
  | cons f fs => exact endsNumber_cons (by decide) _

/-- The first character of a number. -/
theorem number_head (n : Number) : ∃ c cs, n.text = c :: cs ∧ (c.isDigit ∨ c = '-') := by
  have h := n.isNumber.2
  cases htext : n.text with
  | nil => simp [htext] at h
  | cons c cs => exact ⟨c, cs, rfl, by simpa [htext] using h⟩

theorem number_head_ne {c : Char} (h : c.isDigit ∨ c = '-') :
    c ≠ 'n' ∧ c ≠ 't' ∧ c ≠ 'f' ∧ c ≠ '"' ∧ c ≠ '[' ∧ c ≠ '{' ∧ c ≠ ']' := by
  refine ⟨?_, ?_, ?_, ?_, ?_, ?_, ?_⟩ <;> (rintro rfl; revert h; decide)

/-- No text of a value opens with the bracket that closes an array. -/
theorem write_head (v : Json) : ∃ c cs, write v = c :: cs ∧ c ≠ ']' := by
  match v with
  | .null => exact ⟨_, _, rfl, by decide⟩
  | .bool true => exact ⟨_, _, rfl, by decide⟩
  | .bool false => exact ⟨_, _, rfl, by decide⟩
  | .num n =>
    obtain ⟨c, cs, htext, hc⟩ := number_head n
    exact ⟨c, cs, htext, (number_head_ne hc).2.2.2.2.2.2⟩
  | .str s => exact ⟨_, _, rfl, by decide⟩
  | .arr [] => exact ⟨_, _, rfl, by decide⟩
  | .arr (_ :: _) => exact ⟨_, _, rfl, by decide⟩
  | .obj [] => exact ⟨_, _, rfl, by decide⟩
  | .obj (_ :: _) => exact ⟨_, _, rfl, by decide⟩

theorem readValue_num (n : Number) (fuel : Nat) {rest : List Char} (h : EndsNumber rest) :
    readValue (fuel + 1) (n.text ++ rest) = some (.num n, rest) := by
  have hread := readNumber_text n h
  obtain ⟨c, cs, htext, hc⟩ := number_head n
  obtain ⟨h1, h2, h3, h4, h5, h6, -⟩ := number_head_ne hc
  rw [htext, List.cons_append] at hread ⊢
  rw [readValue, if_neg h1, if_neg h2, if_neg h3, if_neg h4, if_neg h5, if_neg h6, hread,
    Option.map_some]

theorem readValue_arr {fuel : Nat} {v : Json} {vs : List Json} {cs rest : List Char}
    (hv : readValue fuel (write v ++ cs) = some (v, cs)) (hvs : readItems fuel cs = some (vs, rest)) :
    readValue (fuel + 1) ('[' :: (write v ++ cs)) = some (.arr (v :: vs), rest) := by
  obtain ⟨c, tail, hwrite, hc⟩ := write_head v
  rw [hwrite, List.cons_append] at hv ⊢
  simp only [readValue, Char.reduceEq, if_false, if_true, List.head?_cons, Option.some.injEq, hc,
    hv, Option.bind_some, hvs,
    Option.map_some]

theorem readField_write {fuel : Nat} (k : String) {v : Json} {rest : List Char}
    (hv : readValue fuel (write v ++ rest) = some (v, rest)) :
    readField (fuel + 1) ('"' :: (writeString k ++ ':' :: (write v ++ rest))) = some ((k, v), rest) := by
  rw [readField, readString_writeString, Option.bind_some]
  simp only [hv, Option.map_some]

/-! The induction is on the value, with the items and the fields of one. -/

mutual

theorem readValue_write (v : Json) (fuel : Nat) (rest : List Char) (hfuel : size v ≤ fuel)
    (h : EndsNumber rest) :
    readValue fuel (write v ++ rest) = some (v, rest) := by
  obtain ⟨fuel, rfl⟩ : ∃ k, fuel = k + 1 := ⟨fuel - 1, by have := one_le_size v; omega⟩
  match v with
  | .null => rfl
  | .bool true => rfl
  | .bool false => rfl
  | .num n => exact readValue_num n fuel h
  | .str s =>
    simp only [write, List.cons_append, readValue, Char.reduceEq, if_false, if_true,
      readString_writeString, Option.map_some]
  | .arr [] => rfl
  | .arr (v :: vs) =>
    simp only [size] at hfuel
    have hv := readValue_write v fuel (writeItems vs ++ rest) (by omega) (endsNumber_writeItems vs rest)
    have hvs := readItems_write vs fuel rest (by omega)
    rw [write, List.cons_append, List.append_assoc]
    exact readValue_arr hv hvs
  | .obj [] => rfl
  | .obj ((k, v) :: fs) =>
    simp only [size] at hfuel
    obtain ⟨fuel, rfl⟩ : ∃ j, fuel = j + 1 := ⟨fuel - 1, by omega⟩
    have hv :=
      readValue_write v fuel (writeFields fs ++ rest) (by omega) (endsNumber_writeFields fs rest)
    have hfs := readFields_write fs (fuel + 1) rest (by omega)
    simp only [write, List.cons_append, List.append_assoc, readValue, Char.reduceEq, if_false,
      if_true, List.head?_cons,
      Option.some.injEq, readField_write k hv, Option.bind_some, hfs, Option.map_some]

theorem readItems_write (vs : List Json) (fuel : Nat) (rest : List Char) (hfuel : sizeItems vs ≤ fuel) :
    readItems fuel (writeItems vs ++ rest) = some (vs, rest) := by
  match vs with
  | [] =>
    obtain ⟨fuel, rfl⟩ : ∃ k, fuel = k + 1 := ⟨fuel - 1, by simp only [sizeItems] at hfuel; omega⟩
    rfl
  | v :: vs =>
    simp only [sizeItems] at hfuel
    obtain ⟨fuel, rfl⟩ : ∃ k, fuel = k + 1 := ⟨fuel - 1, by omega⟩
    have hv := readValue_write v fuel (writeItems vs ++ rest) (by omega) (endsNumber_writeItems vs rest)
    have hvs := readItems_write vs fuel rest (by omega)
    simp only [writeItems, List.cons_append, List.append_assoc, readItems, hv, Option.bind_some,
      hvs, Option.map_some]

theorem readFields_write (fs : List (String × Json)) (fuel : Nat) (rest : List Char)
    (hfuel : sizeFields fs ≤ fuel) :
    readFields fuel (writeFields fs ++ rest) = some (fs, rest) := by
  match fs with
  | [] =>
    obtain ⟨fuel, rfl⟩ : ∃ k, fuel = k + 1 := ⟨fuel - 1, by simp only [sizeFields] at hfuel; omega⟩
    rfl
  | (k, v) :: fs =>
    simp only [sizeFields] at hfuel
    obtain ⟨fuel, rfl⟩ : ∃ j, fuel = j + 2 := ⟨fuel - 2, by omega⟩
    have hv :=
      readValue_write v fuel (writeFields fs ++ rest) (by omega) (endsNumber_writeFields fs rest)
    have hfs := readFields_write fs (fuel + 1) rest (by omega)
    simp only [writeFields, List.cons_append, List.append_assoc, readFields, readField_write k hv,
      Option.bind_some, hfs,
      Option.map_some]

end

mutual

theorem size_le_length (v : Json) : size v ≤ (write v).length := by
  match v with
  | .null | .bool true | .bool false | .str _ | .arr [] | .obj [] => simp [size, write]
  | .num n =>
    obtain ⟨c, cs, htext, -⟩ := number_head n
    simp [size, write, htext]
  | .arr (v :: vs) =>
    have hv := size_le_length v
    have hvs := sizeItems_le_length vs
    simp only [size, write, List.length_cons, List.length_append]
    omega
  | .obj ((k, v) :: fs) =>
    have hv := size_le_length v
    have hfs := sizeFields_le_length fs
    simp only [size, write, List.length_cons, List.length_append]
    omega

theorem sizeItems_le_length (vs : List Json) : sizeItems vs ≤ (writeItems vs).length := by
  match vs with
  | [] => simp [sizeItems, writeItems]
  | v :: vs =>
    have hv := size_le_length v
    have hvs := sizeItems_le_length vs
    simp only [sizeItems, writeItems, List.length_cons, List.length_append]
    omega

theorem sizeFields_le_length (fs : List (String × Json)) : sizeFields fs ≤ (writeFields fs).length := by
  match fs with
  | [] => simp [sizeFields, writeFields]
  | (k, v) :: fs =>
    have hv := size_le_length v
    have hfs := sizeFields_le_length fs
    simp only [sizeFields, writeFields, List.length_cons, List.length_append]
    omega

end

/-- A value is read back from its text. -/
theorem read_write (v : Json) : read (write v) = some v := by
  have h := readValue_write v (write v).length [] (size_le_length v) (fun c hc => by cases hc)
  rw [List.append_nil] at h
  rw [read, h]

/-- Different values have different texts. -/
theorem write_injective : Function.Injective write := fun v w h =>
  Option.some.inj (by rw [← read_write v, h, read_write w])

/-! ## Maps -/

/-- Fields by key. -/
def KeyLE (f g : String × Json) : Prop := f.1 ≤ g.1

instance : DecidableRel KeyLE := fun f g => inferInstanceAs (Decidable (f.1 ≤ g.1))
instance : IsTrans (String × Json) KeyLE := ⟨fun _ _ _ h₁ h₂ => le_trans h₁ h₂⟩
instance : Std.Total KeyLE := ⟨fun f g => le_total f.1 g.1⟩

mutual

/-- The value with the fields of its objects by key, as a map is written. -/
def byKey : Json → Json
  | .null => .null
  | .bool b => .bool b
  | .num n => .num n
  | .str s => .str s
  | .arr vs => .arr (byKeyItems vs)
  | .obj fs => .obj ((byKeyFields fs).insertionSort KeyLE)

def byKeyItems : List Json → List Json
  | [] => []
  | v :: vs => byKey v :: byKeyItems vs

def byKeyFields : List (String × Json) → List (String × Json)
  | [] => []
  | (k, v) :: fs => (k, byKey v) :: byKeyFields fs

end

theorem byKeyFields_eq_map (fs : List (String × Json)) :
    byKeyFields fs = fs.map fun f => (f.1, byKey f.2) := by
  induction fs with
  | nil => rfl
  | cons f fs ih => rw [byKeyFields, ih, List.map_cons]

/-- The order in which a map's fields are listed does not matter. -/
theorem byKey_obj_perm {fs gs : List (String × Json)} (hkeys : (fs.map (·.1)).Nodup) (h : fs.Perm gs) :
    byKey (.obj fs) = byKey (.obj gs) := by
  simp only [byKey, byKeyFields_eq_map, Json.obj.injEq]
  have hmap := h.map fun f : String × Json => (f.1, byKey f.2)
  have hkeys' : ((fs.map fun f => (f.1, byKey f.2)).map (·.1)).Nodup := by
    simpa [Function.comp_def] using hkeys
  refine List.Perm.eq_of_pairwise ?_ (List.pairwise_insertionSort KeyLE _)
    (List.pairwise_insertionSort KeyLE _)
    (((List.perm_insertionSort _ _).trans hmap).trans (List.perm_insertionSort _ _).symm)
  intro f g hf hg hfg hgf
  rw [List.mem_insertionSort] at hf hg
  exact List.inj_on_of_nodup_map hkeys' hf (hmap.mem_iff.2 hg) (le_antisymm hfg hgf)

end JsonText
