import Subdux.Lib.GoStrings
/-!
# Base64 for URLs

The alphabet with `-` and `_`, without padding. What is encoded has no spaces
(`trimSpace_encode`) and is not empty unless the bytes are (`encode_ne_empty`).
-/

namespace Base64
open GoStrings

/-- The character of six bits. -/
def sextet (n : Nat) : Char :=
  if n < 26 then Char.ofNat (65 + n)
  else if n < 52 then Char.ofNat (71 + n)
  else if n < 62 then Char.ofNat (n - 4)
  else if n = 62 then '-' else '_'

/-- Four characters for three bytes, and two or three for the one or two at the end. -/
def encodeChars : List UInt8 → List Char
  | [] => []
  | [a] => [sextet (a.toNat / 4), sextet (a.toNat % 4 * 16)]
  | [a, b] => [sextet (a.toNat / 4), sextet (a.toNat % 4 * 16 + b.toNat / 16), sextet (b.toNat % 16 * 4)]
  | a :: b :: c :: rest =>
    [sextet (a.toNat / 4), sextet (a.toNat % 4 * 16 + b.toNat / 16),
     sextet (b.toNat % 16 * 4 + c.toNat / 64),
      sextet (c.toNat % 64)] ++ encodeChars rest

/-- `base64.RawURLEncoding.EncodeToString`. -/
def encode (bytes : List UInt8) : String := String.ofList (encodeChars bytes)

example : encode [0xFB, 0xFF, 0x00, 0x41] = "-_8AQQ" := by decide +kernel

theorem isSpace_sextet (n : Nat) : isSpace (sextet n) = false := by
  by_cases hn : n < 62
  · revert n
    decide
  · have hsmall : ¬ n < 26 ∧ ¬ n < 52 := by omega
    rw [sextet, if_neg hsmall.1, if_neg hsmall.2, if_neg hn]
    split <;> decide

theorem isSpace_encodeChars (bytes : List UInt8) : ∀ ch ∈ encodeChars bytes, isSpace ch = false := by
  induction bytes using encodeChars.induct with
  | case1 => simp [encodeChars]
  | case2 a => simp [encodeChars, isSpace_sextet]
  | case3 a b => simp [encodeChars, isSpace_sextet]
  | case4 a b c rest ih =>
    intro ch hch
    simp only [encodeChars, List.cons_append, List.nil_append, List.mem_cons] at hch
    rcases hch with rfl | rfl | rfl | rfl | hch
    · exact isSpace_sextet _
    · exact isSpace_sextet _
    · exact isSpace_sextet _
    · exact isSpace_sextet _
    · exact ih ch hch

/-- What is encoded is left as it is by `trimSpace`. -/
theorem trimSpace_encode (bytes : List UInt8) : trimSpace (encode bytes) = encode bytes := by
  apply IsTrimmed.trimSpace_eq
  rw [encode, String.toList_ofList]
  constructor
  · exact fun ch hch => isSpace_encodeChars bytes ch (List.mem_of_mem_head? hch)
  · exact fun ch hch => isSpace_encodeChars bytes ch (List.mem_of_mem_getLast? hch)

theorem encode_ne_empty {bytes : List UInt8} (h : bytes ≠ []) : encode bytes ≠ "" := by
  intro hempty
  have hchars : encodeChars bytes = [] := by
    rw [← String.toList_ofList (l := encodeChars bytes), ← encode, hempty, String.toList_empty]
  cases bytes using encodeChars.induct with
  | case1 => exact h rfl
  | case2 a => cases hchars
  | case3 a b => cases hchars
  | case4 a b c rest => cases hchars

end Base64
